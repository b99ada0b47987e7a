import EdgeFields.Entity
import EdgeFields.Proofs.FieldChange
import EdgeFields.Proofs.FilteredSearch

/-!
# What the index reads of documents

The index keeps the entries of a relationship field flat, each member under the path of the field.  A nested query
asks for an entry that passes the query inside; a term asks for a member equal to a value.  A filter clause
therefore lets a document pass exactly if some entry of its field passes one of the comparisons
(`Analysis.passes_nested`).
-/

namespace EdgeFields.Filter

namespace Reading

/-- One of some alternatives is enough where a minimum of one is written. -/
private theorem passes_anyOf {r : Reading} (h : ∀ count, r.minimum (.int 1) count = 1) (queries : List Value) :
    r.passes (.object [("bool", .object [("should", .list queries), ("minimum_should_match", .int 1)])]) =
      queries.any r.passes := by
  have hparts : combination? (.object [("bool", .object [
      ("should", .list queries), ("minimum_should_match", .int 1)])]) =
        some [(.string "should", .list queries), (.string "minimum_should_match", .int 1)] := rfl
  rw [r.passes_combination hparts]
  change (true && decide (r.minimum (.int 1) queries.length ≤ queries.countP r.passes)) = _
  rw [h, Bool.true_and, Bool.eq_iff_iff, decide_eq_true_iff, Nat.one_le_iff_ne_zero, Nat.ne_zero_iff_zero_lt,
    List.countP_pos_iff, List.any_eq_true]

/-- What is made of a document whose fields have entries that are asked each for itself. -/
def ofEntries (entries : String → List Value) (entry : String → Value → Reading) (other : Value → Bool)
    (minimum : Value → Nat → Nat) : Reading where
  leaf
    | .object [(kind, .object [(p, path), (q, query)])] =>
      if kind == "nested" && p == "path" && q == "query" then
        (entries path.toText).any fun v => (entry path.toText v).passes query
      else other (.object [(kind, .object [(p, path), (q, query)])])
    | q => other q
  minimum := minimum

variable {entries : String → List Value} {entry : String → Value → Reading} {other : Value → Bool}
  {minimum : Value → Nat → Nat}

theorem passes_nested_ofEntries (h : ∀ k v, (entry k v).minimum (.int 1) = fun _ => 1) {k : String}
    {comparisons : List Value} : (ofEntries entries entry other minimum).passes (nested (.string k) comparisons) =
      (entries k).any fun v => comparisons.any (entry k v).passes := by
  rw [passes_eq_leaf _ rfl rfl]
  change (entries k).any (fun v => (entry k v).passes _) = _
  simp only [passes_anyOf fun count => congrFun (h _ _) count]

end Reading

/-- What is left open of an index: which texts match a value, what it finds by any other query, and what it makes of a
minimum that is no integer. -/
structure Analysis where
  matched : Value → Value → Bool
  other : Value → Bool
  minimum : Value → Nat → Nat

/-- The members of an entry under the path of its field; a title stands once more as it is, for it is analysed. -/
def flattened (path : String) : Value → List (String × Value)
  | .object ms => ms.flatMap fun m =>
      let name := path ++ "." ++ m.1.toText
      if m.1.toText = "title" then [(name, m.2), (name ++ ".raw", m.2)] else [(name, m.2)]
  | _ => []

namespace Analysis

variable (a : Analysis)

/-- How many of some alternatives a written minimum asks for; a negative one is the number that may be missed. -/
def least : Value → Nat → Nat
  | .int n, count => if 0 ≤ n then n.toNat else count - n.natAbs
  | v, count => a.minimum v count

/-- What the index makes of an entry of the field at a path. -/
def entry (path : String) (v : Value) : Reading where
  leaf
    | .object [(kind, .object [(name, w)])] =>
      let found := (flattened path v).lookup name.toText
      if kind == "term" then found.any (· == w)
      else if kind == "match" then found.any (a.matched · w)
      else a.other (.object [(kind, .object [(name, w)])])
    | q => a.other q
  minimum := a.least

/-- What the index makes of a document. -/
def document (doc : Document) : Reading where
  leaf
    | .object [(kind, .object [(p, path), (q, query)])] =>
      if kind == "nested" && p == "path" && q == "query" then
        (doc.itemsAt (.string path.toText)).any fun v => (a.entry path.toText v).passes query
      else a.other (.object [(kind, .object [(p, path), (q, query)])])
    | q => a.other q
  minimum := a.least

variable {a}

private theorem document_eq (doc : Document) :
    a.document doc = .ofEntries (fun k => doc.itemsAt (.string k)) a.entry a.other a.least := rfl

/-- A filter clause finds the documents with an entry that passes one of its comparisons. -/
theorem passes_nested (doc : Document) (k : String) (comparisons : List Value) :
    (a.document doc).passes (nested (.string k) comparisons) =
      (doc.itemsAt (.string k)).any fun v => comparisons.any (a.entry k v).passes := by
  rw [document_eq]
  exact Reading.passes_nested_ofEntries fun _ _ => rfl

/-- A term finds the entries whose member is equal to its value. -/
private theorem passes_term (k member : String) (v w : Value) :
    (a.entry k v).passes (comparison "term" (.string k) member w) =
      ((flattened k v).lookup (k ++ "." ++ member)).any (· == w) := by
  rw [(a.entry k v).passes_eq_leaf rfl rfl]
  rfl

/-- The summary of an entity has its number. -/
theorem passes_entityId (k : String) (e : Entity) (n : Int) :
    (a.entry k (.object e.summary)).passes (comparison "term" (.string k) "entity_id" (.int n)) = (e.id == n) := by
  have hnumber : (flattened k (.object e.summary)).lookup (k ++ "." ++ "entity_id") = some (.int e.id) := by
    change List.lookup _ ((k ++ "." ++ "entity_id", Value.int e.id) :: _) = _
    rw [List.lookup_cons, beq_self_eq_true]
  rw [passes_term, hnumber, Option.any_some, Value.beq_int]

end Analysis

end EdgeFields.Filter

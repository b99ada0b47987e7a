import EdgeFields.Filter.Search
import EdgeFields.Proofs.FilterClauses
import EdgeFields.Proofs.Texts

/-!
# What filtered searches find

Queries have the meaning that the index gives to boolean combinations, over any reading of the other queries.  A
filtered search finds what the old one finds and every clause lets pass, except where the old query is nothing but
alternatives: the clauses then stand in for them, and the alternatives are not asked for any more (`compile_passes`).
-/

namespace EdgeFields.Filter

/-! ### Boolean combinations -/

/-- The parts of a query that is a boolean combination alone. -/
def combination? : Value → Option Record
  | .object [(k, .object parts)] => if Key.string "bool" == k then some parts else none
  | _ => none

/-- The queries in a part of a combination, where one query may stand without a list. -/
def queriesIn (part : String) (parts : Record) : List Value :=
  match parts.lookup (.string part) with
  | some (.object ms) => [.object ms]
  | some (.list qs) => qs
  | some (.tuple qs) => qs
  | _ => []

/-- Whether a query asks for nothing. -/
def isBlank : Value → Bool
  | .null => true
  | .object ms => ms.isEmpty
  | _ => false

private theorem sizeOf_lt_of_mem_queriesIn {q c : Value} {part : String} {parts : Record}
    (hq : combination? q = some parts) (hc : c ∈ queriesIn part parts) : sizeOf c < sizeOf q := by
  -- The parts are smaller than the query, and what is found in them is smaller still.
  have hparts : sizeOf parts < sizeOf q := by
    unfold combination? at hq
    split at hq
    · split at hq
      · obtain rfl := Option.some.inj hq
        simp
        omega
      · cases hq
    · cases hq
  unfold queriesIn at hc
  have hv : ∀ v, parts.lookup (.string part) = some v → sizeOf v < sizeOf parts := by
    intro v hv
    obtain ⟨k, -, hmem⟩ := Assoc.mem_of_lookup hv
    have := List.sizeOf_lt_of_mem hmem
    simp at this
    omega
  split at hc
  · next ms h =>
    obtain rfl := List.mem_singleton.1 hc
    exact (hv _ h).trans hparts
  · next qs h =>
    have := List.sizeOf_lt_of_mem hc
    have := hv _ h
    simp at this
    omega
  · next qs h =>
    have := List.sizeOf_lt_of_mem hc
    have := hv _ h
    simp at this
    omega
  · cases hc

/-! ### What passes a query -/

/-- What the index knows of a document: which single queries it passes, and how many of some alternatives a written
minimum asks for. -/
structure Reading where
  leaf : Value → Bool
  minimum : Value → Nat → Nat

namespace Reading

variable (r : Reading)

/-- How many alternatives a document has to pass.  One is enough where nothing is written, and none is needed beside
other queries that are asked for. -/
def needed (parts : Record) : Nat :=
  match parts.lookup (.string "minimum_should_match") with
  | some v => r.minimum v (queriesIn "should" parts).length
  | none =>
    if (queriesIn "must" parts).isEmpty && (queriesIn "filter" parts).isEmpty && !(queriesIn "should" parts).isEmpty
    then 1 else 0

/-- Whether a document passes a query. -/
def passes (q : Value) : Bool :=
  match _ : combination? q with
  | none => isBlank q || r.leaf q
  | some parts =>
    (queriesIn "must" parts).attach.all (fun c => passes c.1) &&
    (queriesIn "filter" parts).attach.all (fun c => passes c.1) &&
    !(queriesIn "must_not" parts).attach.any (fun c => passes c.1) &&
    decide (r.needed parts ≤ (queriesIn "should" parts).attach.countP fun c => passes c.1)
termination_by sizeOf q
decreasing_by all_goals exact sizeOf_lt_of_mem_queriesIn ‹_› c.2

theorem passes_combination {q : Value} {parts : Record} (h : combination? q = some parts) :
    r.passes q = ((queriesIn "must" parts).all r.passes && (queriesIn "filter" parts).all r.passes &&
      !(queriesIn "must_not" parts).any r.passes &&
      decide (r.needed parts ≤ (queriesIn "should" parts).countP r.passes)) := by
  rw [passes]
  split
  · next h' => rw [h] at h'; cases h'
  · next parts' h' =>
    obtain rfl : parts = parts' := Option.some.inj (h.symm.trans h')
    simp

private theorem passes_of_isBlank {q : Value} (h : isBlank q = true) : r.passes q = true := by
  have hq : combination? q = none := by
    unfold isBlank at h
    split at h
    · rfl
    · obtain rfl := List.isEmpty_iff.1 h
      rfl
    · cases h
  rw [passes]
  split
  · rw [h, Bool.true_or]
  · next h' => rw [hq] at h'; cases h'

theorem passes_eq_leaf {q : Value} (hq : combination? q = none) (h : isBlank q = false) : r.passes q = r.leaf q := by
  rw [passes]
  split
  · rw [h, Bool.false_or]
  · next h' => rw [hq] at h'; cases h'

private theorem passes_requireAll (qs : List Value) : r.passes (.object (requireAll qs)) = qs.all r.passes := by
  have hq : combination? (.object (requireAll qs)) = some [(.string "must", .list qs)] := rfl
  have hmust : queriesIn "must" [(.string "must", .list qs)] = qs := rfl
  have hfilter : queriesIn "filter" [(.string "must", .list qs)] = [] := rfl
  have hmustNot : queriesIn "must_not" [(.string "must", .list qs)] = [] := rfl
  have hshould : queriesIn "should" [(.string "must", .list qs)] = [] := rfl
  have hneeded : r.needed [(.string "must", .list qs)] = 0 := by
    have hwritten : List.lookup (Key.string "minimum_should_match") [(Key.string "must", Value.list qs)] = none := rfl
    simp [needed, hwritten, hshould]
  rw [r.passes_combination hq, hmust, hfilter, hmustNot, hshould, hneeded]
  simp

end Reading

/-! ### Queries with clauses added -/

/-- The parts of a combination with more queries that it requires. -/
def require (cs : List Value) (parts : Record) : Record :=
  Assoc.insert (.string "must") (.list (queriesIn "must" parts ++ cs)) parts

theorem queriesIn_require (cs : List Value) (parts : Record) :
    queriesIn "must" (require cs parts) = queriesIn "must" parts ++ cs := by
  rw [queriesIn, require, Assoc.lookup_insert_self]

private theorem lookup_require_of_ne (part : String) (h : part ≠ "must") (cs : List Value) (parts : Record) :
    (require cs parts).lookup (.string part) = parts.lookup (.string part) :=
  Assoc.lookup_insert_of_ne (Key.string_beq_of_ne fun e => h (Key.string.inj e).symm) _ _

private theorem queriesIn_require_of_ne (part : String) (h : part ≠ "must") (cs : List Value) (parts : Record) :
    queriesIn part (require cs parts) = queriesIn part parts := by
  rw [queriesIn, lookup_require_of_ne part h, queriesIn]

/-- Combinations that ask for nothing but alternatives, and leave open how many. -/
structure OnlyOffers (parts : Record) : Prop where
  unwritten : parts.lookup (.string "minimum_should_match") = none
  unrequired : queriesIn "must" parts = []
  unfiltered : queriesIn "filter" parts = []
  offered : queriesIn "should" parts ≠ []

namespace Reading

variable (r : Reading)

private theorem needed_of_onlyOffers {parts : Record} (h : OnlyOffers parts) : r.needed parts = 1 := by
  simp [needed, h.unwritten, h.unrequired, h.unfiltered, h.offered]

private theorem needed_require_of_onlyOffers {cs : List Value} (hcs : cs ≠ []) {parts : Record}
    (h : OnlyOffers parts) : r.needed (require cs parts) = 0 := by
  have hwritten := (lookup_require_of_ne "minimum_should_match" (by decide) cs parts).trans h.unwritten
  simp [needed, hwritten, queriesIn_require, hcs]

/-- Beside anything else that is asked for, more queries do not change how many alternatives are needed. -/
private theorem needed_require {cs : List Value} (hcs : cs ≠ []) {parts : Record} (h : ¬ OnlyOffers parts) :
    r.needed (require cs parts) = r.needed parts := by
  have hwritten := lookup_require_of_ne "minimum_should_match" (by decide) cs parts
  have hshould := queriesIn_require_of_ne "should" (by decide) cs parts
  unfold needed
  rw [hwritten, hshould]
  cases hmin : parts.lookup (.string "minimum_should_match") with
  | some v => rfl
  | none =>
    -- One alternative was needed only if nothing else was asked for, which `h` excludes.
    have hrequire : queriesIn "must" (require cs parts) ≠ [] := by
      rw [queriesIn_require]
      exact List.append_ne_nil_of_right_ne_nil _ hcs
    have hold : ¬ (((queriesIn "must" parts).isEmpty && (queriesIn "filter" parts).isEmpty &&
        !(queriesIn "should" parts).isEmpty) = true) := by
      simp only [Bool.and_eq_true, Bool.not_eq_true', List.isEmpty_iff, List.isEmpty_eq_false_iff]
      rintro ⟨⟨hm, hf⟩, hs⟩
      exact h ⟨hmin, hm, hf, hs⟩
    simp only [if_neg hold, List.isEmpty_eq_false_iff.2 hrequire, Bool.false_and]
    rfl

section Combination

variable {r} {q q' : Value} {parts : Record} {cs : List Value}

private theorem passes_of_onlyOffers (hq : combination? q = some parts) (h : OnlyOffers parts) :
    r.passes q = (!(queriesIn "must_not" parts).any r.passes && (queriesIn "should" parts).any r.passes) := by
  rw [r.passes_combination hq, h.unrequired, h.unfiltered, r.needed_of_onlyOffers h]
  congr 1
  rw [Bool.eq_iff_iff, decide_eq_true_iff, Nat.one_le_iff_ne_zero, Nat.ne_zero_iff_zero_lt, List.countP_pos_iff,
    List.any_eq_true]

/-- Queries added to nothing but alternatives replace them. -/
private theorem passes_require_of_onlyOffers (hcs : cs ≠ []) (hq' : combination? q' = some (require cs parts))
    (h : OnlyOffers parts) : r.passes q' = (cs.all r.passes && !(queriesIn "must_not" parts).any r.passes) := by
  rw [r.passes_combination hq', r.needed_require_of_onlyOffers hcs h, queriesIn_require, h.unrequired,
    queriesIn_require_of_ne "filter" (by decide), h.unfiltered,
    queriesIn_require_of_ne "must_not" (by decide)]
  simp

/-- Queries added to anything else have to be passed besides. -/
private theorem passes_require (hcs : cs ≠ []) (hq : combination? q = some parts)
    (hq' : combination? q' = some (require cs parts)) (h : ¬ OnlyOffers parts) :
    r.passes q' = (r.passes q && cs.all r.passes) := by
  rw [r.passes_combination hq', r.needed_require hcs h, queriesIn_require,
    queriesIn_require_of_ne "filter" (by decide), queriesIn_require_of_ne "must_not" (by decide),
    queriesIn_require_of_ne "should" (by decide), r.passes_combination hq, List.all_append]
  simp only [Bool.and_assoc, Bool.and_comm, Bool.and_left_comm]

end Combination

/-- Documents that pass none of the alternatives which a query asks for alone, and nothing that it rules out. -/
def Slips (q : Value) : Prop :=
  ∃ parts, combination? q = some parts ∧ OnlyOffers parts ∧
    (∀ c ∈ queriesIn "should" parts, r.passes c = false) ∧ ∀ c ∈ queriesIn "must_not" parts, r.passes c = false

/-- What a document makes of a query with clauses added: it has to pass the query and every clause, unless it slips
through the query, where the clauses are enough. -/
structure Adds (q : Value) (cs : List Value) (q' : Value) : Prop where
  passes_iff : ¬ r.Slips q → (r.passes q' = true ↔ r.passes q = true ∧ ∀ c ∈ cs, r.passes c = true)
  passes_of_slips : r.Slips q → r.passes q = false ∧ (r.passes q' = true ↔ ∀ c ∈ cs, r.passes c = true)

variable {r} {q q' : Value} {parts : Record} {cs : List Value}

private theorem adds_of_passes_eq (hq : ¬ r.Slips q) (h : r.passes q' = (r.passes q && cs.all r.passes)) :
    r.Adds q cs q' where
  passes_iff _ := by rw [h, Bool.and_eq_true, List.all_eq_true]
  passes_of_slips hs := absurd hs hq

private theorem adds_requireAll (hq : combination? q = none) (h : r.passes q' = (r.passes q && cs.all r.passes)) :
    r.Adds q cs q' := by
  refine adds_of_passes_eq ?_ h
  rintro ⟨parts, hq', -⟩
  rw [hq] at hq'
  cases hq'

private theorem adds_require (hcs : cs ≠ []) (hq : combination? q = some parts)
    (hq' : combination? q' = some (require cs parts)) : r.Adds q cs q' := by
  by_cases ho : OnlyOffers parts
  · have hpasses := passes_of_onlyOffers (r := r) hq ho
    have hpasses' := passes_require_of_onlyOffers (r := r) hcs hq' ho
    constructor
    · intro hs
      rw [hpasses, hpasses']
      cases hbarred : (queriesIn "must_not" parts).any r.passes with
      | true => simp
      | false =>
        -- The document does not slip through, so it passes one of the alternatives.
        have hoffered : (queriesIn "should" parts).any r.passes = true := by
          by_contra hno
          rw [Bool.not_eq_true, List.any_eq_false] at hno
          rw [List.any_eq_false] at hbarred
          exact hs ⟨parts, hq, ho, fun c hc => Bool.eq_false_iff.2 (hno c hc),
            fun c hc => Bool.eq_false_iff.2 (hbarred c hc)⟩
        rw [hoffered]
        simp
    · rintro ⟨parts', hq'', -, hshould, hmustNot⟩
      obtain rfl : parts = parts' := Option.some.inj (hq.symm.trans hq'')
      have hoffered : (queriesIn "should" parts).any r.passes = false :=
        List.any_eq_false.2 fun c hc => Bool.eq_false_iff.1 (hshould c hc)
      have hbarred : (queriesIn "must_not" parts).any r.passes = false :=
        List.any_eq_false.2 fun c hc => Bool.eq_false_iff.1 (hmustNot c hc)
      rw [hpasses, hpasses', hoffered, hbarred]
      simp
  · refine adds_of_passes_eq ?_ (passes_require hcs hq hq' ho)
    rintro ⟨parts', hq'', ho', -⟩
    exact ho (Option.some.inj (hq.symm.trans hq'') ▸ ho')

end Reading

/-! ### Merging -/

/-- What the required part of a combination may be: nothing, one query or a list of queries. -/
inductive Entries : Option Value → Prop where
  | none : Entries none
  | single (ms : Record) : Entries (some (.object ms))
  | list (qs : List Value) : Entries (some (.list qs))

/-- The queries that clauses can be added to: none, any query that is no combination, and the combinations whose
required part is well formed.  Nothing is asked of the queries inside. -/
inductive Extensible : Value → Prop where
  | absent : Extensible .null
  | other {ms : Record} (h : isCombination (.object ms) = .ok false) : Extensible (.object ms)
  | combination {k : Key} {parts : Record} (hk : (Key.string "bool" == k) = true)
      (hmust : Entries (parts.lookup (.string "must"))) : Extensible (.object [(k, .object parts)])

theorem requiredOf_eq_ok {parts : Record} (h : Entries (parts.lookup (.string "must"))) :
    requiredOf parts = .ok (queriesIn "must" parts) := by
  unfold requiredOf queriesIn
  generalize parts.lookup (.string "must") = found at h
  cases h <;> rfl

theorem combination?_of_isCombination {ms : Record} (h : isCombination (.object ms) = .ok false) :
    combination? (.object ms) = none := by
  unfold combination?
  split
  · next k parts e =>
    obtain rfl := Value.object.inj e
    rw [if_neg]
    rintro hk
    simp [isCombination, Assoc.contains, List.lookup_cons, hk] at h
  · rfl

section Merge

variable {q : Value} (cs : List Value)

theorem merge_of_not_truthy (h : q.truthy = false) : merge q (.list cs) = .ok (requireAll cs) := by
  rw [merge, h]
  rfl

theorem merge_of_not_combination (ht : q.truthy = true) (h : isCombination q = .ok false) :
    merge q (.list cs) = .ok (requireAll (q :: cs)) := by
  rw [merge, ht, h]
  rfl

/-- Clauses go behind what a combination requires already. -/
theorem merge_combination {k : Key} (hk : (Key.string "bool" == k) = true) (v : Value) :
    merge (.object [(k, v)]) (.list cs) = do
      let parts ← v.toRecord
      let required ← requiredOf parts
      return [(k, .object (Assoc.insert (.string "must") (.list (required ++ cs)) parts))] := by
  have his : isCombination (.object [(k, v)]) = .ok true := by
    simp [isCombination, Assoc.contains, List.lookup_cons, hk]
  have hlookup : List.lookup (Key.string "bool") [(k, v)] = some v := by
    simp [List.lookup_cons, hk]
  simp only [merge, Value.truthy, his, ok_bind, Value.toRecord_object, hlookup, Option.getD_some, Value.elements]
  simp [Assoc.insert, hk]

end Merge

/-- Clauses can be added to every query that is extensible, and what comes out has them added. -/
private theorem merge_eq_ok {q : Value} (hq : Extensible q) {cs : List Value} (hcs : cs ≠ []) :
    ∃ ms, merge q (.list cs) = .ok ms ∧ ∀ r : Reading, r.Adds q cs (.object ms) := by
  cases hq with
  | absent =>
    refine ⟨requireAll cs, rfl, fun r => Reading.adds_requireAll rfl ?_⟩
    rw [r.passes_requireAll, r.passes_of_isBlank rfl, Bool.true_and]
  | @other ms h =>
    have hnone := combination?_of_isCombination h
    cases hms : ms.isEmpty with
    | true =>
      obtain rfl := List.isEmpty_iff.1 hms
      refine ⟨requireAll cs, rfl, fun r => Reading.adds_requireAll hnone ?_⟩
      rw [r.passes_requireAll, r.passes_of_isBlank rfl, Bool.true_and]
    | false =>
      have htruthy : (Value.object ms).truthy = true := by simp [Value.truthy, hms]
      refine ⟨_, merge_of_not_combination cs htruthy h, fun r => Reading.adds_requireAll hnone ?_⟩
      rw [r.passes_requireAll, List.all_cons]
  | @combination k parts hk hmust =>
    have hcombination : combination? (.object [(k, .object parts)]) = some parts := by
      rw [combination?, if_pos hk]
    have hmerged : combination? (.object [(k, .object (require cs parts))]) = some (require cs parts) := by
      rw [combination?, if_pos hk]
    refine ⟨[(k, .object (require cs parts))], ?_, fun r => Reading.adds_require hcs hcombination hmerged⟩
    rw [merge_combination cs hk, Value.toRecord_object, ok_bind, requiredOf_eq_ok hmust]
    rfl

/-! ### Search bodies -/

/-- The query of a search body, null if there is none. -/
def queryOf : Value → Value
  | .object ms => (ms.lookup (.string "query")).getD .null
  | _ => .null

/-- A search body with another query. -/
def withQuery (query : Record) : Value → Value
  | .object ms => .object (Assoc.insert (.string "query") (.object query) ms)
  | _ => .object [(.string "query", .object query)]

private theorem queryOf_withQuery (query : Record) (base : Value) :
    queryOf (withQuery query base) = .object query := by
  unfold withQuery
  split
  · rw [queryOf, Assoc.lookup_insert_self, Option.getD_some]
  · rfl

/-- Search bodies, absent ones among them, with queries that clauses can be added to. -/
inductive SearchBody : Value → Prop where
  | absent : SearchBody .null
  | object {ms : Record} (h : Extensible (queryOf (.object ms))) : SearchBody (.object ms)

private theorem SearchBody.extensible {base : Value} (h : SearchBody base) : Extensible (queryOf base) := by
  cases h with
  | absent => exact .absent
  | object h => exact h

private theorem compile_of_merge {hooks : Hooks} {active : Record} {cs : List Value}
    (hcs : clauses hooks active = .ok cs) (hne : cs ≠ []) {base : Value} (hbase : SearchBody base) {query : Record}
    (hquery : merge (queryOf base) (.list cs) = .ok query) :
    compile hooks active base = .ok (some (withQuery query base)) := by
  have hempty : cs.isEmpty = false := List.isEmpty_eq_false_iff.2 hne
  unfold compile
  rw [hcs, ok_bind, hempty]
  cases hbase with
  | absent =>
    simp only [queryOf] at hquery
    simp [Value.truthy, hquery, withQuery, Assoc.insert]
  | @object ms _ =>
    cases ms with
    | nil =>
      simp only [queryOf, List.lookup_nil, Option.getD_none] at hquery
      simp [Value.truthy, hquery, withQuery]
    | cons m ms =>
      simp only [queryOf] at hquery
      simp [Value.truthy, hquery, withQuery]

theorem compile_eq_ok {hooks : Hooks} {active : Record} {cs : List Value} (hcs : clauses hooks active = .ok cs)
    (hne : cs ≠ []) {base : Value} (hbase : SearchBody base) :
    ∃ body, compile hooks active base = .ok (some body) ∧
      ∀ r : Reading, r.Adds (queryOf base) cs (queryOf body) := by
  obtain ⟨query, hquery, hadds⟩ := merge_eq_ok hbase.extensible hne
  refine ⟨withQuery query base, compile_of_merge hcs hne hbase hquery, fun r => ?_⟩
  rw [queryOf_withQuery]
  exact hadds r

/-- Where there was no query before, the clauses alone decide what a search finds. -/
theorem compile_eq_ok_of_absent {hooks : Hooks} (hhooks : hooks.filterQueries = none) {active : Record}
    {cs : List Value} (hcs : clausesOf active = .ok cs) (hne : cs ≠ []) :
    ∃ body, compile hooks active .null = .ok (some body) ∧ ∀ r : Reading, r.passes (queryOf body) = true ↔
      ∀ f ∈ active, ∀ c, clauseOf? f = .ok (some c) → r.passes c = true := by
  obtain ⟨body, hbody, hadds⟩ := compile_eq_ok ((clauses_eq_clausesOf hhooks active).trans hcs) hne .absent
  refine ⟨body, hbody, fun r => ?_⟩
  have hslips : ¬ r.Slips .null := by
    rintro ⟨parts, hparts, -⟩
    cases hparts
  rw [(hadds r).passes_iff hslips, r.passes_of_isBlank rfl]
  simp only [true_and, mem_clausesOf_iff hcs]
  constructor
  · intro hall f hf c hc
    exact hall c ⟨f, hf, hc⟩
  · rintro hall c ⟨f, hf, hc⟩
    exact hall f hf c hc

/-- Without a host, searches are compiled exactly if all their filters can be read. -/
theorem compile_eq_ok_iff {hooks : Hooks} (hhooks : hooks.filterQueries = none) {active : Record} {base : Value}
    (hbase : SearchBody base) : (∃ found, compile hooks active base = .ok found) ↔ ∀ f ∈ active, Readable f.2 := by
  constructor
  · rintro ⟨found, h⟩
    obtain ⟨cs, hcs, -⟩ := exists_of_bind_eq_ok h
    exact clausesOf_eq_ok_iff.1 ⟨cs, clauses_eq_clausesOf hhooks active ▸ hcs⟩
  · intro h
    obtain ⟨cs, hcs, -⟩ := clauses_eq_ok hhooks h
    by_cases hne : cs = []
    · exact ⟨none, by rw [compile, hcs, hne]; rfl⟩
    · obtain ⟨body, hbody, -⟩ := compile_eq_ok hcs hne hbase
      exact ⟨_, hbody⟩

/-- A search with filters that can be read, one of which has a text, has at least one clause.  It finds the documents
that the old search finds and every clause lets pass, and besides them only documents that slip through the old query:
those it did not find, although they pass all but its alternatives. -/
theorem compile_passes {hooks : Hooks} (hhooks : hooks.filterQueries = none) {active : Record}
    (hread : ∀ f ∈ active, Readable f.2) (htext : ∃ f ∈ active, textsOf f.2 ≠ .ok []) {base : Value}
    (hbase : SearchBody base) :
    ∃ cs body, clauses hooks active = .ok cs ∧ cs ≠ [] ∧ compile hooks active base = .ok (some body) ∧
      ∀ r : Reading,
        (¬ r.Slips (queryOf base) →
          (r.passes (queryOf body) = true ↔ r.passes (queryOf base) = true ∧ ∀ c ∈ cs, r.passes c = true)) ∧
        (r.Slips (queryOf base) → r.passes (queryOf base) = false ∧
          (r.passes (queryOf body) = true ↔ ∀ c ∈ cs, r.passes c = true)) := by
  obtain ⟨cs, hcs, hne⟩ := clauses_eq_ok hhooks hread
  obtain ⟨body, hbody, hadds⟩ := compile_eq_ok hcs (hne htext) hbase
  exact ⟨cs, body, hcs, hne htext, hbody, fun r => ⟨(hadds r).passes_iff, (hadds r).passes_of_slips⟩⟩

/-- The filter for one sponsor. -/
def onSponsor : Record :=
  [(.string "related_sponsors_company", .list [.string "42"])]

/-- A search body that asks for nothing but one of some titles. -/
def titled : Value :=
  .object [(.string "query", .object [(.string "bool", .object [(.string "should",
    .list [.object [(.string "match", .object [(.string "title", .string "x")])]])])])]

private theorem textsOf_onSponsor : textsOf (.list [.string "42"]) = .ok ["42"] := by
  cbv

private theorem readable_onSponsor : ∀ f ∈ onSponsor, Readable f.2 := by
  refine List.forall_mem_singleton.2 ⟨["42"], textsOf_onSponsor, List.forall_mem_singleton.2 ?_⟩
  exact legible_of_length_le (by decide)

private theorem hasText_onSponsor : ∃ f ∈ onSponsor, textsOf f.2 ≠ .ok [] := by
  refine ⟨_, List.mem_singleton_self _, ?_⟩
  rw [textsOf_onSponsor]
  simp

theorem searchBody_titled : SearchBody titled :=
  .object (.combination rfl .none)

theorem compile_passes_sponsor :
    ∃ cs body, clauses {} onSponsor = .ok cs ∧ cs ≠ [] ∧ compile {} onSponsor titled = .ok (some body) ∧
      ∀ r : Reading,
        (¬ r.Slips (queryOf titled) →
          (r.passes (queryOf body) = true ↔ r.passes (queryOf titled) = true ∧ ∀ c ∈ cs, r.passes c = true)) ∧
        (r.Slips (queryOf titled) → r.passes (queryOf titled) = false ∧
          (r.passes (queryOf body) = true ↔ ∀ c ∈ cs, r.passes c = true)) :=
  compile_passes rfl readable_onSponsor hasText_onSponsor searchBody_titled

/-- A document of the sponsor that has none of the titles. -/
def sponsored : Reading where
  leaf q := q matches .object [(.string "nested", _)]
  minimum _ n := n

/-- The filtered search finds a document of the sponsor that the old search does not find. -/
theorem compile_slips : ∃ cs body, clauses {} onSponsor = .ok cs ∧ compile {} onSponsor titled = .ok (some body) ∧
    ¬ (sponsored.passes (queryOf body) = true ↔
      sponsored.passes (queryOf titled) = true ∧ ∀ c ∈ cs, sponsored.passes c = true) := by
  have hhooks : ({} : Hooks).filterQueries = none := rfl
  obtain ⟨cs, hcs, hne⟩ := clauses_eq_ok hhooks readable_onSponsor
  obtain ⟨body, hbody, hadds⟩ := compile_eq_ok hcs (hne hasText_onSponsor) searchBody_titled
  refine ⟨cs, body, hcs, hbody, ?_⟩
  have hclause : ∀ c ∈ cs, sponsored.passes c = true := by
    intro c hc
    obtain ⟨f, -, comparisons, rfl⟩ :=
      eq_nested_of_mem_clausesOf ((clauses_eq_clausesOf hhooks onSponsor).symm.trans hcs) c hc
    rw [sponsored.passes_eq_leaf rfl rfl]
    rfl
  have htitle : sponsored.Slips (queryOf titled) := by
    refine ⟨_, rfl, ⟨rfl, rfl, rfl, List.cons_ne_nil _ _⟩, List.forall_mem_singleton.2 ?_, List.forall_mem_nil _⟩
    rw [sponsored.passes_eq_leaf rfl rfl]
    rfl
  obtain ⟨hmissed, hfound⟩ := (hadds sponsored).passes_of_slips htitle
  rw [hmissed, hfound]
  exact fun h => Bool.false_ne_true (h.1 hclause).1

end EdgeFields.Filter

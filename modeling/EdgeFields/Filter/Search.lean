import EdgeFields.Filter.Clause

/-!
# Filtered searches

Filter clauses are added to the query of a search body so that a document has to pass the old query and every
clause.  A query that is a boolean combination alone gets them into its required part, any other query becomes one
of the required ones.
-/

namespace EdgeFields.Filter

/-- A query that requires all of some queries. -/
def requireAll (queries : List Value) : Record :=
  [("bool", .object [("must", .list queries)])]

/-- The required part of a boolean combination, where one query may stand without a list. -/
def requiredOf (parts : Record) : Except Fault (List Value) :=
  match parts.lookup (.string "must") with
  | none => .ok []
  | some (.object ms) => .ok [.object ms]
  | some v => v.elements

/-- Whether a query holds nothing but a boolean combination; numbers and truth values cannot be asked. -/
def isCombination : Value → Except Fault Bool
  | .object ms => .ok (Assoc.contains (.string "bool") ms && ms.length == 1)
  | .list xs => .ok (xs.contains (.string "bool") && xs.length == 1)
  | .string _ => .ok false
  | _ => .error .wrongType

/-- A query that requires another one and some clauses. -/
def merge (query clauses : Value) : Except Fault Record := do
  if !query.truthy then return requireAll (← clauses.elements)
  if !(← isCombination query) then return requireAll (query :: (← clauses.elements))
  let ms ← query.toRecord
  let parts ← ((ms.lookup (.string "bool")).getD .null).toRecord
  let required ← requiredOf parts
  let parts := Assoc.insert (.string "must") (.list (required ++ (← clauses.elements))) parts
  return Assoc.insert (.string "bool") (.object parts) ms

/-- The search body with some filters; nothing if no filter has a value, and the body stays as it is. -/
def compile (hooks : Hooks) (active : Record) (base : Value) : Except Fault (Option Value) := do
  let cs ← clauses hooks active
  if cs.isEmpty then return none
  let ms ← if base.truthy then
      match base with
      | .object ms => .ok ms
      | v => .error (v.cannot "get")
    else .ok []
  let query ← merge ((ms.lookup (.string "query")).getD .null) (.list cs)
  return some (.object (Assoc.insert (.string "query") (.object query) ms))

end EdgeFields.Filter

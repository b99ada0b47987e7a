import EdgeFields.Hooks
import EdgeFields.Text.Integer
import EdgeFields.Value.Same

/-!
# Filter clauses

A filter on a relationship field asks for entries that have one of some values.  A value that is the number of an
entity is compared with the numbers, any other with slugs and titles.
-/

namespace EdgeFields.Filter

/-- The least number of an entity, `-2 ^ 31`. -/
def leastId : Int := -2147483648

/-- The greatest number of an entity, `2 ^ 31 - 1`. -/
def greatestId : Int := 2147483647

/-- Whether a text is one or more digits of ASCII behind at most one sign. -/
def isDecimal (cs : List Char) : Bool :=
  let digits := (Text.splitSign cs).2
  !digits.isEmpty && digits.all Char.isDigit

/-- The number of an entity that a text denotes, blanks around it apart.  Decimals that are too long to be read are a
fault. -/
def entityNumber? (s : String) : Except Fault (Option Int) := do
  let cs := Text.trimChars s.toList
  if !isDecimal cs then return none
  let n ← (Text.readInteger cs).mapError (·.fault (String.ofList cs))
  return if leastId ≤ n ∧ n ≤ greatestId then some n else none

/-- The text of a value that stands in a filter. -/
def textOf : Value → Except Fault String
  | .string s => .ok s
  | v => .error (v.cannot "strip")

/-- Whether a value is a text that denotes the number of an entity. -/
def isEntityNumber (v : Value) : Except Fault Bool := do
  return (← entityNumber? (← textOf v)).isSome

/-- A comparison of a kind with one member of the entries of a field. -/
def comparison (kind : String) (field : Value) (member : String) (v : Value) : Value :=
  .object [(.string kind, .object [(.string (field.toText ++ "." ++ member), v)])]

/-- The comparisons of one value: with the numbers, or with slugs and titles. -/
def valueClauses (field v : Value) : Except Fault (List Value) := do
  match ← entityNumber? (← textOf v) with
  | some n => return [comparison "term" field "entity_id" (.int n)]
  | none => return [
      comparison "term" field "slug" v,
      comparison "term" field "title.raw" v,
      comparison "match" field "title" v]

/-- The clause for the entries of a field that pass one of some comparisons. -/
def nested (field : Value) (comparisons : List Value) : Value :=
  .object [("nested", .object [
    ("path", field),
    ("query", .object [("bool", .object [
      ("should", .list comparisons),
      ("minimum_should_match", .int 1)])])])]

/-- The clause for a field and some values; none if there are no values. -/
def clauseFor? (field values : Value) : Except Fault (Option Value) := do
  if !values.truthy then return none
  let comparisons ← (← values.elements).mapM (valueClauses field)
  return some (nested field comparisons.flatten)

/-- The distinct texts that a filter value stands for, blanks around them apart; empty ones and nulls are left out. -/
def textsOf (v : Value) : Except Fault (List String) := do
  let items ← match v with
    | .null => .ok []
    | .string _ | .bool _ | .int _ => .ok [v]
    | v => v.elements
  let texts := (items.filter fun item => !item.isNull).map fun item => Text.trim item.toText
  return (texts.filter (· ≠ "")).foldl (fun kept t => if kept.contains t then kept else kept ++ [t]) []

/-- The clauses of some filters, before a host adjusts them. -/
def clausesOf (active : Record) : Except Fault (List Value) := do
  let clauses ← active.mapM fun f => do
    clauseFor? f.1.toValue (.list ((← textsOf f.2).map Value.string))
  return clauses.filterMap id

/-- The clauses of some filters. -/
def clauses (hooks : Hooks) (active : Record) : Except Fault (List Value) := do
  let cs ← clausesOf active
  if cs.isEmpty then return []
  Hooks.adjust (hooks.filterQueries.map fun f cs => f cs active) cs

end EdgeFields.Filter

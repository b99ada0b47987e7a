import EdgeFields.Definition

/-!
# Field keys

Entities related by a relationship are kept in a field of the document.  Its key is made of a stem, the name of
the relationship and the type of the related entities, both with every character outside the identifiers replaced.
Different pairs can therefore share a key; `collisions` finds those.
-/

namespace EdgeFields

/-- The name of a relationship and the type of the entities on the other side. -/
abbrev Related := Value × Value

namespace FieldKey

/-- The characters of identifiers. -/
def isIdentifier (c : Char) : Bool :=
  c.isAlphanum || c == '_'

/-- A text with every character outside the identifiers replaced by an underscore. -/
def identifierOf (s : String) : String :=
  s.map fun c => if isIdentifier c then c else '_'

/-- The part of a key that comes from a name or a type; one that is not present gives the empty part. -/
def part (v : Value) : Except Fault String :=
  match v with
  | .string s => .ok (identifierOf s)
  | v => if v.truthy then .error .wrongType else .ok ""

/-- The stem of field keys unless the host sets another. -/
def defaultStem : String := "related_"

/-- The key of the field for entities of a type that are related under a name. -/
def derive (stem : String) (name type : Value) : Except Fault String := do
  return stem ++ (← part name) ++ "_" ++ (← part type)

/-- The pairs of a name and a type of either side, for every valid definition. -/
def pairs (ds : List Definition) : List Related :=
  (ds.filter Definition.isValid).flatMap fun d => d.allTypes.map fun t => (d.name, t)

/-- Files a pair under its key unless an equal pair is there. -/
def file (m : List (String × List Related)) (entry : String × Related) : List (String × List Related) :=
  match m.lookup entry.1 with
  | some ps => if ps.contains entry.2 then m else Assoc.push entry.1 entry.2 m
  | none => Assoc.push entry.1 entry.2 m

/-- The distinct pairs under each key, in order of first appearance. -/
def pairsByKey (stem : String) (ds : List Definition) : Except Fault (List (String × List Related)) := do
  let entries ← (pairs ds).mapM fun p => do return (← derive stem p.1 p.2, p)
  return entries.foldl file []

/-- The distinct keys of the valid definitions, in order of first appearance. -/
def all (stem : String) (ds : List Definition) : Except Fault (List String) := do
  return Assoc.keys (← pairsByKey stem ds)

/-- The keys that several distinct pairs share, with those pairs. -/
def collisions (stem : String) (ds : List Definition) : Except Fault Collisions := do
  return (← pairsByKey stem ds).filter fun entry => entry.2.length > 1

@[simp] theorem derive_string (stem s t : String) :
    derive stem (.string s) (.string t) = .ok (stem ++ identifierOf s ++ "_" ++ identifierOf t) := rfl

end FieldKey

end EdgeFields

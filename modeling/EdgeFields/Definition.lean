import EdgeFields.Value.Read
import EdgeFields.Value.Same

/-!
# Relationship definitions

A relationship has a name and entity types on two sides.  Hosts declare relationships as objects, as things with
attributes or as finished definitions; `Definition.coerce` reads all three.
-/

namespace EdgeFields

/-- A relationship between the entity types of two sides. -/
structure Definition where
  name : Value
  fromTypes : List Value
  toTypes : List Value
  deriving Inhabited, Repr

/-- What a host declares a relationship with. -/
inductive Declaration where
  /-- A plain value, usually an object. -/
  | plain (v : Value)
  /-- A thing with attributes. -/
  | attributes (members : List (String × Value))
  /-- A finished definition. -/
  | definition (d : Definition)
  deriving Inhabited, Repr

/-- A definition as a value. -/
def Definition.toValue (d : Definition) : Value :=
  .thing "RelationshipDefinition"
    [("name", d.name), ("from_types", .tuple d.fromTypes), ("to_types", .tuple d.toTypes)]

/-- A declaration as a value. -/
def Declaration.toValue : Declaration → Value
  | plain v => v
  | attributes ms => .bundle ms
  | definition d => d.toValue

/-- What a host answers when it is asked for its relationships; nothing at all counts as none. -/
abbrev Source := Option (List Declaration)

namespace Definition

/-- The types that a value names: one text, or the distinct present items of a list. -/
def typesOf : Value → Except Fault (List Value)
  | .null => .ok []
  | .string s => .ok (if s = "" then [] else [.string s])
  | v => do return Value.dedup ((← v.elements).filter Value.truthy)

/-- Whether a definition has a name and at least one type on each side. -/
def isValid (d : Definition) : Bool :=
  d.name.truthy && !d.fromTypes.isEmpty && !d.toTypes.isEmpty

/-- Whether a type stands on one of the sides. -/
def involves (d : Definition) (type : Value) : Bool :=
  d.fromTypes.contains type || d.toTypes.contains type

/-- The distinct present types of both sides. -/
def allTypes (d : Definition) : List Value :=
  Value.dedup ((d.fromTypes ++ d.toTypes).filter Value.truthy)

/-- The types on the other side from `type`; a type on both sides faces the types of both. -/
def opposingTypes (d : Definition) (type : Value) : List Value :=
  match d.fromTypes.contains type, d.toTypes.contains type with
  | true, true => Value.dedup ((d.toTypes ++ d.fromTypes).filter Value.truthy)
  | true, false => d.toTypes
  | false, true => d.fromTypes
  | false, false => []

/-- A definition with these parts; a name that is not present becomes the empty text. -/
def ofParts (name fromTypes toTypes : Value) : Except Fault Definition := do
  return {
    name := if name.truthy then name else .string ""
    fromTypes := ← typesOf fromTypes
    toTypes := ← typesOf toTypes }

/-- The first of the members that is there, null if none is. -/
def firstMember {κ : Type} [BEq κ] (ms : List (κ × Value)) (names : List κ) : Value :=
  (names.findSome? fun name => ms.lookup name).getD .null

/-- Reads a declaration.  Objects and things with attributes have parts, a constant has its name; anything else has
none. -/
def coerce : Declaration → Except Fault Definition
  | .definition d => .ok d
  | .plain (.object ms) =>
    ofParts (firstMember ms ["name"]) (firstMember ms ["from", "from_types"]) (firstMember ms ["to", "to_types"])
  | .plain (.constant _ name _) => ofParts (.string name) .null .null
  | .plain _ => ofParts .null .null .null
  | .attributes ms =>
    ofParts (firstMember ms ["name"]) (firstMember ms ["from_types", "from_"]) (firstMember ms ["to_types", "to"])

end Definition

end EdgeFields

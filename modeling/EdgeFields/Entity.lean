import EdgeFields.Value.Read

/-!
# Entities

An entity is known by its number and its type.  Documents of related entities hold a summary of it.
-/

namespace EdgeFields

/-- An entity of the host. -/
structure Entity where
  id : Int
  type : Value
  title : Value := .string ""
  slug : Value := .string ""
  deriving Inhabited, Repr

namespace Entity

/-- Reads an entity from its members; number and type are required. -/
def ofRecord (ms : Record) : Except Fault Entity := do
  match ms.lookup (.string "id"), ms.lookup (.string "type") with
  | some id, some type =>
    return {
      id := ← id.toInteger
      type := type
      title := (ms.lookup (.string "title")).getD (.string "")
      slug := (ms.lookup (.string "slug")).getD (.string "") }
  | _, _ => throw .wrongType

/-- A value, or the empty text if it is not present. -/
def textOr (v : Value) : Value :=
  if v.truthy then v else .string ""

/-- The summary of an entity that documents of related entities hold. -/
def summary (e : Entity) : Record :=
  [("entity_id", .int e.id), ("title", textOr e.title), ("slug", textOr e.slug), ("type", e.type)]

/-- An entity as a value. -/
def toValue (e : Entity) : Value :=
  .thing "EntityRef" [("id", .int e.id), ("type", e.type), ("title", e.title), ("slug", e.slug)]

end Entity

end EdgeFields

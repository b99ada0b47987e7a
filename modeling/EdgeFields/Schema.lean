import EdgeFields.FieldKey
import EdgeFields.Hooks
import EdgeFields.Session

/-!
# Schema

The index has to know the relationship fields as nested ones.  The schema is derived from the definitions: one
mapping for all fields, which a host may adjust as a whole and for single fields.
-/

namespace EdgeFields

/-- How the schema is adjusted, which stem field keys have, and which index it is for. -/
structure Schema where
  hooks : Hooks := {}
  stem : String := FieldKey.defaultStem
  indexName : Value := .null

namespace Schema

/-- An object whose only member is a type. -/
def typed (type : String) : Value :=
  .object [("type", .string type)]

/-- The mapping of a relationship field: nested, with number, title, slug and type of each entity. -/
def fieldMapping : Value :=
  .object [
    ("type", .string "nested"),
    ("properties", .object [
      ("entity_id", typed "integer"),
      ("title", .object [
        ("type", .string "text"),
        ("fields", .object [("raw", typed "keyword")])]),
      ("slug", typed "keyword"),
      ("type", typed "keyword")])]

/-- The mapping that all fields start from. -/
def defaultMapping (s : Schema) : Except Fault Value :=
  Hooks.adjust s.hooks.defaultMapping fieldMapping

/-- Reads declarations, with a notice for each that is not valid. -/
def readAll (declared : List Declaration) : Report (List Definition) := do
  let ds ← declared.mapM fun d => (Definition.coerce d : Except Fault Definition)
  ds.forM fun d => if d.isValid then pure () else Report.note .warning .schema
  return ds.filter Definition.isValid

/-- Adds a field key at the end unless it is there. -/
def addKey (keys : List Key) (key : Key) : List Key :=
  if keys.contains key then keys else keys ++ [key]

/-- The distinct field keys to map.  Keys that pairs share are refused. -/
def fields (s : Schema) (declared : List Declaration) : Report (List Key) := do
  let ds ← readAll declared
  let shared ← FieldKey.collisions s.stem ds
  if !shared.isEmpty then throw (.collisions shared)
  let keys := (← FieldKey.all s.stem ds).map Value.string
  let keys ← Hooks.adjust (s.hooks.mappingFields.map fun f keys => f keys ds) keys
  return (← keys.mapM fun v => (v.toKey : Except Fault Key)).foldl addKey []

/-- The mapping of one field. -/
def mappingOf (s : Schema) (mapping : Value) (key : Key) : Except Fault Value :=
  Hooks.adjust (s.hooks.fieldMappings.lookup key) mapping

/-- The mappings of all relationship fields, by field key. -/
def properties (s : Schema) (declared : List Declaration) : Report Record := do
  let mapping ← s.defaultMapping
  (← s.fields declared).mapM fun key => do return (key, ← s.mappingOf mapping key)

/-- The members of an object inside another one, none if it is missing. -/
def membersUnder (k : Key) (ms : Record) (action : String) : Except Fault Record :=
  ((ms.lookup k).getD (.object [])).membersTo action

/-- The body that creates an index, with the relationship fields in it; nothing if it stays as it is, because it is
for another index or there are no fields. -/
def applyTo (s : Schema) (body indexName : Value) (declared : List Declaration) : Report (Option Value) := do
  if s.indexName.truthy && !indexName.equal s.indexName then return none
  let properties ← s.properties declared
  if properties.isEmpty then return none
  let ms ← body.membersTo "setdefault"
  let mappings ← membersUnder "mappings" ms "setdefault"
  let known ← membersUnder "properties" mappings "update"
  let known := Assoc.update known properties
  return some (.object (Assoc.insert "mappings" (.object (Assoc.insert "properties" (.object known) mappings)) ms))

/-- The index to put the mappings on, and the mappings; nothing if there are no fields. -/
def toPut (s : Schema) (indexName : Value) (declared : List Declaration) : Report (Option (Value × Record)) := do
  let target := if indexName.truthy then indexName else s.indexName
  if !target.truthy then throw .noIndexName
  let properties ← s.properties declared
  Report.note .info .schema
  return if properties.isEmpty then none else some (target, properties)

end Schema

end EdgeFields

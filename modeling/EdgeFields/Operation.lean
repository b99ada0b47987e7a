import EdgeFields.Value.Read
import EdgeFields.Value.Same

/-!
# Operations

An operation changes one field of the document of one entity: it adds one projection, takes away those of one
entity, or replaces the whole list.
-/

namespace EdgeFields

/-- What an operation does to its field. -/
inductive Action where
  /-- Adds a projection unless the field holds one of the same entity. -/
  | upsert
  /-- Takes away the projections of an entity, and the field with the last one. -/
  | remove
  /-- Replaces the whole list, and drops the field for an empty one. -/
  | replace
  deriving DecidableEq, Repr, Inhabited

/-- The word for an action. -/
def Action.word : Action → String
  | upsert => "upsert"
  | remove => "remove"
  | replace => "replace"

/-- The name of an action among the constants. -/
def Action.name : Action → String
  | upsert => "UPSERT"
  | remove => "REMOVE"
  | replace => "REPLACE"

/-- The action that an operation asks for, which may be none of the known ones. -/
inductive ActionRequest where
  | known (action : Action)
  | other (v : Value)
  deriving Inhabited, Repr

/-- The action asked for, as a value. -/
def ActionRequest.toValue : ActionRequest → Value
  | known a => .constant "SyncAction" a.name a.word
  | other v => v

/-- One change of one field of one document.  What is added or taken away is a projection: what an entity looks like
inside the documents of related entities.  A host may put any value in its place. -/
structure Operation where
  owner : Value
  field : Value
  action : ActionRequest
  projection : Value := .null
  projections : List Value := []
  deriving Inhabited, Repr

namespace Operation

/-- The number of the entity that the operation is about, null if it has none. -/
def entityId (op : Operation) : Except Fault Value :=
  match op.projection with
  | .null => .ok .null
  | v => v.member "entity_id"

/-- The action as the word that it goes by. -/
def actionWord (op : Operation) : Value :=
  match op.action with
  | .known a => .string a.word
  | .other v => v

/-- Whether the operation replaces the whole list. -/
def replaces (op : Operation) : Bool :=
  match op.action with
  | .known .replace => true
  | _ => false

/-- The projections of a replacement, each copied to an object. -/
def values (op : Operation) : Except Fault (List Value) :=
  op.projections.mapM fun p => do return .object (← p.toRecord)

/-- The parameters that the operation is sent with. -/
def params (op : Operation) : Except Fault Record := do
  if op.replaces then
    return [("field", op.field), ("values", .list (← op.values))]
  else
    let value ← if op.projection.truthy then op.projection.toRecord else .ok []
    return [("field", op.field), ("value", .object value)]

/-- The operation as a record, with the projections of a replacement and the projection of any other one. -/
def toRecord (op : Operation) : Record :=
  [("owner_entity_id", op.owner), ("field_key", op.field), ("action", op.actionWord),
    if op.replaces then ("projections", .list op.projections) else ("projection", op.projection)]

/-- The operation as a value. -/
def toValue (op : Operation) : Value :=
  .thing "SyncOperation"
    [("owner_entity_id", op.owner), ("field_key", op.field), ("action", op.action.toValue),
      ("projection", op.projection), ("projections", .tuple op.projections)]

end Operation

/-- An item of a batch: an operation, or something else that a host put there. -/
inductive BatchItem where
  | operation (op : Operation)
  | other (v : Value)
  deriving Inhabited, Repr

namespace BatchItem

/-- An item of a batch as a value. -/
def toValue : BatchItem → Value
  | operation op => op.toValue
  | other v => v

/-- The number of the entity whose document an item is for. -/
def owner : BatchItem → Except Fault Value
  | operation op => .ok op.owner
  | other v => v.part "owner_entity_id"

/-- The field that an item is for. -/
def field : BatchItem → Except Fault Value
  | operation op => .ok op.field
  | other v => v.part "field_key"

end BatchItem

end EdgeFields

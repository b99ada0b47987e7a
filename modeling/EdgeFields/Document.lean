import EdgeFields.Operation
import EdgeFields.Session

/-!
# Documents

A document is an object; an operation changes the list of projections in one of its fields.  `Document.apply` says
how, and whether the document changed, so that a repeated operation is known to do nothing.
-/

namespace EdgeFields

/-- The members of a document, in order. -/
abbrev Document := Record

namespace Document

/-- Whether an item of a field's list is about the entity of an operation. -/
def isSubject (op : Operation) (item : Value) : Except Fault Bool := do
  let id ← item.member "entity_id"
  return id.equal (← op.entityId)

/-- Whether an item about the entity of an operation is in the list; items after it are not looked at. -/
def holds (op : Operation) : List Value → Except Fault Bool
  | [] => .ok false
  | item :: items => do if ← isSubject op item then return true else holds op items

/-- The items about other entities than that of an operation. -/
def without (op : Operation) (items : List Value) : Except Fault (List Value) :=
  items.filterM fun item => do return !(← isSubject op item)

/-- What a field holds, null if it is not there. -/
def current (field : Key) : Session Document Value := do
  return ((← get).lookup field).getD .null

/-- Sets the list of a field. -/
def put (field : Key) (items : List Value) : Session Document Unit :=
  modify (Assoc.insert field (.list items))

/-- Takes a field away. -/
def drop (field : Key) : Session Document Unit :=
  modify (Assoc.erase field)

/-- Adds a projection to a field unless one of the same entity is there. -/
def upsert (field : Key) (op : Operation) : Session Document Bool := do
  match ← current field with
  | .null =>
    put field [.object (← op.projection.toRecord)]
    return true
  | .list items =>
    if ← holds op items then
      return false
    else
      put field (items ++ [.object (← op.projection.toRecord)])
      return true
  | .tuple items => if ← holds op items then return false else throw .noMember
  | .string _ | .object _ => throw .noMember
  | .bool _ | .int _ | .float _ | .thing _ _ | .bundle _ | .constant _ _ _ => throw .wrongType

/-- Takes the projections of an entity from a field, and the field with the last one. -/
def remove (field : Key) (op : Operation) : Session Document Bool := do
  match ← current field with
  | .null => return false
  | v =>
    let items ← v.elements
    let kept ← without op items
    if kept.isEmpty then
      drop field
      return true
    else if kept.length = items.length then
      return false
    else
      put field kept
      return true

/-- Replaces the list of a field, and drops the field for an empty one. -/
def replace (field : Key) (op : Operation) : Session Document Bool := do
  if op.projections.isEmpty then
    if Assoc.contains field (← get) then
      drop field
      return true
    else
      return false
  else
    let values ← op.values
    if (← current field) == .list values then
      return false
    else
      put field values
      return true

/-- Carries out an operation; whether it changed the document. -/
def apply (op : Operation) : Session Document Bool := do
  let field ← op.field.toKey
  match op.action with
  | .known .upsert => upsert field op
  | .known .remove => remove field op
  | .known .replace => replace field op
  | .other v => throw (.unsupportedAction v)

/-- Refuses what is no operation: something in it is missing, or it asks for no known action. -/
def refuse (v : Value) : Session Document Bool := do
  let _ ← (← v.part "field_key").toKey
  throw (.unsupportedAction (← v.part "action"))

/-- Carries out an item of a batch; whether it changed the document. -/
def carryOut : BatchItem → Session Document Bool
  | .operation op => apply op
  | .other v => refuse v

/-- Carries out an item of a batch on what is kept as a document, which has to be an object; whether it changed
it. -/
def perform (item : BatchItem) : Session Value Bool := fun v =>
  match item.field, v with
  | .ok _, .object doc =>
    let (doc, changed) := (carryOut item).run doc
    (.object doc, changed)
  | .ok _, v => (v, throw (v.cannot "get"))
  | .error f, v => (v, throw f)

/-- The document after an operation. -/
def after (doc : Document) (op : Operation) : Document :=
  ((apply op).run doc).1

end Document

end EdgeFields

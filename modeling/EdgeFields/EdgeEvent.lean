import EdgeFields.RelatedFields

/-!
# Edge events

An edge between two entities is kept in the documents of both.  When one is added or removed, an engine answers the
operations on the two documents; when an entity is written as a whole, its fields; and when existing documents are
to be mended, one replacement for every field the entity's type can have.
-/

namespace EdgeFields

/-- Counts of what an engine was asked and answered. -/
structure Stats where
  events : Nat := 0
  operations : Nat := 0
  aborted : Nat := 0
  ignored : Nat := 0
  deriving Inhabited, Repr

/-- Between what an edge event joins two things. -/
inductive Kind where
  | entityToEntity
  | entityToUser
  deriving DecidableEq, Repr, Inhabited

/-- The word for a kind. -/
def Kind.word : Kind → String
  | entityToEntity => "entity-to-entity"
  | entityToUser => "entity-to-user"

/-- The name of a kind among the constants. -/
def Kind.name : Kind → String
  | entityToEntity => "ENTITY_TO_ENTITY"
  | entityToUser => "ENTITY_TO_USER"

/-- A kind as a value. -/
def Kind.toValue (k : Kind) : Value :=
  .constant "RelationshipKind" k.name k.word

/-- Whether a value is a kind or the word for it. -/
def Kind.isMeant (k : Kind) (v : Value) : Bool :=
  v == .string k.word || v == k.toValue

/-- The kind that a value means. -/
def Kind.meant (v : Value) : Except Fault Kind :=
  match [entityToEntity, entityToUser].find? (·.isMeant v) with
  | some k => .ok k
  | none => .error (.unknownKind v)

/-- Reads a kind; entities on both ends are meant when none is given. -/
def Kind.ofValue : Value → Except Fault Kind
  | .null => .ok entityToEntity
  | v => meant v

/-- One end of an edge: an entity, or a value that its number is read from. -/
inductive Endpoint where
  | entity (e : Entity)
  | id (v : Value)
  deriving Inhabited

/-- An edge that was added or removed. -/
structure EdgeEvent where
  a : Endpoint
  b : Endpoint
  name : Value
  kind : Value := .null
  deriving Inhabited

/-- The entity of the store at an end of an edge; a value that gives no number has none. -/
def Endpoint.resolve (store : Store) : Endpoint → Except Fault (Option Entity)
  | entity e => .ok (store.entity e.id)
  | id v =>
    match v.toInteger with
    | .ok n => .ok (store.entity n)
    | .error .infiniteInteger => .error .infiniteInteger
    | .error _ => .ok none

namespace Projector

/-- The operation that puts `other` into the document of `owner`, or takes it out. -/
def edgeOperation (p : Projector) (action : Action) (name : Value) (owner other : Entity) :
    Except Fault Operation := do
  return {
    owner := .int owner.id
    field := .string (← FieldKey.derive p.stem name other.type)
    action := .known action
    projection := ← p.projection other }

/-- The operations of an edge between two entities: one on each document, and one only for an entity and itself. -/
def edgeOperations (p : Projector) (action : Action) (name : Value) (first second : Entity) :
    Except Fault (List Operation) := do
  let forth ← p.edgeOperation action name first second
  if second.id = first.id && second.type == first.type then return [forth]
  return [forth, ← p.edgeOperation action name second first]

/-- The replacements of every field that the entity's type can have. -/
def replacements (p : Projector) (ds : List Definition) (e : Entity) (fields : Fields) :
    Except Fault (List Operation) := do
  return (← p.fieldKeysFor ds e.type).map fun key => {
    owner := .int e.id
    field := .string key
    action := .known .replace
    projections := (fields.lookup key).getD [] }

end Projector

/-- The catalogue in use and the counts so far. -/
structure Engine where
  catalogue : Catalogue := {}
  stats : Stats := {}
  deriving Inhabited

namespace Engine

/-- Changes the counts. -/
def count (f : Stats → Stats) : Session Engine Unit :=
  modify fun e => { e with stats := f e.stats }

/-- Runs a look-up in the catalogue. -/
def lookUp {α : Type} (m : Session Catalogue α) : Session Engine α :=
  Session.on Engine.catalogue (fun c e => { e with catalogue := c }) m

/-- The operations of an edge event.  Events of other kinds and of unknown relationships are ignored, and those with
an end that is no entity of the store are given up. -/
def edge (p : Projector) (source : Source) (store : Store) (action : Action) (ev : EdgeEvent) :
    Session Engine (List BatchItem) := do
  count fun s => { s with events := s.events + 1 }
  if (← Kind.ofValue ev.kind) ≠ .entityToEntity then
    count fun s => { s with ignored := s.ignored + 1 }
    return []
  if !(← lookUp (Catalogue.contains p.hooks source ev.name)) then
    Report.note .warning .edges
    count fun s => { s with ignored := s.ignored + 1 }
    return []
  match ← ev.a.resolve store, ← ev.b.resolve store with
  | some first, some second =>
    let ops := (← p.edgeOperations action ev.name first second).map BatchItem.operation
    let items ← Hooks.adjust (p.hooks.relationshipData.map fun f items => f items first second) ops
    count fun s => { s with operations := s.operations + items.length }
    return items
  | _, _ =>
    Report.note .debug .edges
    count fun s => { s with aborted := s.aborted + 1 }
    return []

/-- The relationship fields of an entity's document. -/
def fullIndex (p : Projector) (source : Source) (store : Store) (e : Entity) : Session Engine Fields := do
  let ds ← lookUp (Catalogue.definitionsFor p.hooks source e.type)
  return (← p.project store ds e).1

/-- The replacements that make the relationship fields of an entity's document what they should be. -/
def reproject (p : Projector) (source : Source) (store : Store) (e : Entity) :
    Session Engine (List Operation) := do
  let ds ← lookUp (Catalogue.definitionsFor p.hooks source e.type)
  let fields := (← p.project store ds e).1
  let ops ← p.replacements ds e fields
  count fun s => { s with operations := s.operations + ops.length }
  return ops

end Engine

end EdgeFields

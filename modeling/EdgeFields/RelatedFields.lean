import EdgeFields.Catalogue
import EdgeFields.Store

/-!
# Related fields

The relationship fields of one entity's document.  For every relationship that the entity's type takes part in and
every type on the other side, the first page of related entities is embedded under the field key.
-/

namespace EdgeFields

/-- The relationship fields of a document, in order. -/
abbrev Fields := List (String × List Value)

/-- One question to a store. -/
structure Query where
  source : Int
  name : Value
  type : Value
  size : Value
  deriving Inhabited

/-- Where related entities come from and how they are embedded. -/
structure Projector where
  hooks : Hooks := {}
  stem : String := FieldKey.defaultStem
  pageSize : Value := .int 100

namespace Projector

/-- The page size for a relationship name and a type: at least one. -/
def pageSizeFor (p : Projector) (name type : Value) : Except Fault Value := do
  let size ← match p.hooks.pageSize with
    | some f => do pure (.int (← (← f name type p.pageSize).toInteger))
    | none => .ok p.pageSize
  return if ← size.isBelow 1 then .int 1 else size

/-- What documents of related entities hold of an entity. -/
def projection (p : Projector) (e : Entity) : Except Fault Value :=
  match p.hooks.projection with
  | some f => f e.summary e
  | none => .ok (.object e.summary)

/-- The entities of a page, without gaps and without those listed before. -/
def distinct (page : List (Option Entity)) : List Entity :=
  (page.filterMap id).foldl (fun kept e => if kept.any (·.id == e.id) then kept else kept ++ [e]) []

/-- The first page for one relationship name and type, embedded; a full page is noticed. -/
def embed (p : Projector) (size : Value) (related : List (Option Entity)) : Report (List Value) := do
  if related.isEmpty then return []
  if ← size.isAtMost related.length then Report.note .debug .fields
  let count ← size.toCount
  (distinct (related.take count.toNat)).mapM fun e => (p.projection e : Except Fault Value)

/-- Adds the field for one relationship name and type, unless nothing is related. -/
def addField (p : Projector) (store : Store) (e : Entity) (done : Fields × List Query) (r : Related) :
    Report (Fields × List Query) := do
  let size ← p.pageSizeFor r.1 r.2
  let queries := done.2 ++ [⟨e.id, r.1, r.2, size⟩]
  let related ← store.related e.id r.1 r.2 size
  let embedded ← p.embed size (related.getD [])
  if embedded.isEmpty then return (done.1, queries)
  let key ← FieldKey.derive p.stem r.1 r.2
  return (Assoc.insert key embedded done.1, queries)

/-- The relationship fields of an entity's document, with the questions asked of the store. -/
def project (p : Projector) (store : Store) (ds : List Definition) (e : Entity) :
    Report (Fields × List Query) :=
  (Catalogue.relatedPairs ds e.type).foldlM (p.addField store e) ([], [])

/-- Adds a key at the end unless it is there. -/
def addKey (keys : List String) (key : String) : List String :=
  if keys.contains key then keys else keys ++ [key]

/-- Every field key that documents of an entity type can have. -/
def fieldKeysFor (p : Projector) (ds : List Definition) (type : Value) : Except Fault (List String) := do
  return ((← (Catalogue.relatedPairs ds type).mapM fun r => FieldKey.derive p.stem r.1 r.2).foldl addKey [])

end Projector

end EdgeFields

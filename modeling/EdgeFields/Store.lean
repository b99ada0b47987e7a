import EdgeFields.Entity
import EdgeFields.Value.Read
import EdgeFields.Value.Same

/-!
# Entity stores

The host's access to its entities: one by its number, and those related to an entity.  A `Graph` is a store in
memory that goes through a list of links.
-/

namespace EdgeFields

/-- Access to entities.  The entities related to one are asked for by relationship name, type and page size; a
store may leave gaps among them, may give no list at all, and may fail. -/
structure Store where
  entity : Int → Option Entity
  related : Int → Value → Value → Value → Except Fault (Option (List (Option Entity)))

/-- Two entities joined under a relationship name. -/
structure Link where
  a : Value
  b : Value
  name : Value
  deriving Inhabited, Repr

/-- What entities related to one are asked for by: its number, a relationship name and a type. -/
abbrev PageKey := Key × Key × Key

/-- Entities by key, the links between them, and fixed answers that go before the links: the keys of the related
entities, or null for no list. -/
structure Graph where
  entities : List (Key × Entity) := []
  links : List Link := []
  pages : List (PageKey × Value) := []
  deriving Inhabited

namespace Link

/-- The other end of a link from an entity, if the entity is one of its ends. -/
def other? (l : Link) (id : Value) : Option Value :=
  if l.a == id then some l.b else if l.b == id then some l.a else none

/-- Whether two links join the same ends, in the same order, under the same name. -/
def same (l l' : Link) : Bool :=
  l.a == l'.a && l.b == l'.b && l.name == l'.name

end Link

namespace Graph

/-- The entity under a key. -/
def find? (g : Graph) (key : Key) : Option Entity :=
  g.entities.lookup key

/-- The entity under a value, which has to be fit for a key. -/
def get (g : Graph) (v : Value) : Except Fault (Option Entity) := do
  return g.find? (← v.toKey)

/-- Puts an entity under a key. -/
def put (g : Graph) (key : Key) (e : Entity) : Graph :=
  { g with entities := Assoc.insert key e g.entities }

/-- Adds a link at the end. -/
def link (g : Graph) (l : Link) : Graph :=
  { g with links := g.links ++ [l] }

/-- Takes away the first link equal to this one, if there is one. -/
def unlink? (g : Graph) (l : Link) : Option Graph :=
  if g.links.any (·.same l) then
    some { g with links := g.links.eraseP (·.same l) }
  else none

/-- The entities of a type that links of a name join to an entity, in the order of the links. -/
def linked (g : Graph) (id : Int) (name type : Value) : Except Fault (List Entity) := do
  let ends := (g.links.filter fun l => l.name == name).filterMap fun l => l.other? (.int id)
  return ((← ends.mapM g.get).filterMap fun e => e).filter fun e => e.type == type

/-- The key that related entities are asked for by. -/
def pageKey (id name type : Value) : Except Fault PageKey := do
  return (← id.toKey, ← name.toKey, ← type.toKey)

/-- Fixes the answer for an entity, a relationship name and a type. -/
def fix (g : Graph) (id name type ids : Value) : Except Fault Graph := do
  return { g with pages := Assoc.insert (← pageKey id name type) ids g.pages }

/-- The entities under the keys of a fixed answer, if it is a list. -/
def onPage (g : Graph) : Value → Except Fault (Option (List (Option Entity)))
  | .null => .ok none
  | ids => do return some (← (← ids.elements).mapM g.get)

/-- The entities related to one: all of a fixed answer, or the linked ones up to the page size. -/
def related (g : Graph) (id : Int) (name type size : Value) : Except Fault (Option (List (Option Entity))) := do
  match g.pages.lookup (← pageKey (.int id) name type) with
  | some ids => g.onPage ids
  | none =>
    let linked ← g.linked id name type
    return some ((linked.take (← size.toCount).toNat).map some)

/-- A graph as a store. -/
def store (g : Graph) : Store where
  entity id := g.find? (.int id)
  related := g.related

end Graph

end EdgeFields

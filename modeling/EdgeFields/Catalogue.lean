import EdgeFields.FieldKey
import EdgeFields.Hooks
import EdgeFields.Session

/-!
# Catalogue

The catalogue holds the relationship definitions in use.  It is loaded from the host's declarations at the first
look-up and kept until it is reset, and so is what it answers about an entity type.  Loading skips invalid
definitions, and those whose field keys would be shared with another pair of a definition loaded before.
-/

namespace EdgeFields

namespace Catalogue

/-- Notices a definition whose name, which has to be fit for a key, another one has already. -/
def noteRepeated (loaded : List Definition) (d : Definition) : Report Unit := do
  let _ ← d.name.toKey
  if loaded.any fun d' => d'.name == d.name then Report.note .warning .catalogue

/-- Takes a declaration into the definitions loaded so far, or skips it with a notice. -/
def consider (loaded : List Definition) (declared : Declaration) : Report (List Definition) := do
  let d ← Definition.coerce declared
  if d.isValid then
    let shared ← FieldKey.collisions FieldKey.defaultStem (loaded ++ [d])
    if shared.isEmpty then
      noteRepeated loaded d
      return loaded ++ [d]
    else
      Report.note .error .catalogue
      return loaded
  else
    Report.note .warning .catalogue
    return loaded

/-- The definitions that a host's declarations give. -/
def load (hooks : Hooks) (source : Source) : Report (List Definition) := do
  let declared ← Hooks.adjust hooks.relationships (source.getD [])
  let loaded ← declared.foldlM consider []
  Report.note .debug .catalogue
  return loaded

/-- The types on the other side from an entity type, for each relationship name that the type takes part in. -/
def relatedTypes (ds : List Definition) (type : Value) : List (Value × List Value) :=
  (ds.filter (·.involves type)).foldl
    (fun m d => Assoc.insert d.name (Value.union ((m.lookup d.name).getD []) (d.opposingTypes type)) m) []

/-- The pairs of a relationship name and a type on the other side from an entity type. -/
def relatedPairs (ds : List Definition) (type : Value) : List Related :=
  (relatedTypes ds type).flatMap fun entry => entry.2.map fun t => (entry.1, t)

/-- The first definition of a name. -/
def find? (ds : List Definition) (name : Value) : Option Definition :=
  ds.find? fun d => d.name == name

end Catalogue

/-- The loaded definitions, if there are any yet, and how often the host was asked for its declarations.  What was
found for an entity type is kept as well. -/
structure Catalogue where
  cached : Option (List Definition) := none
  loads : Nat := 0
  byType : List (Key × List (Value × List Value)) := []
  deriving Inhabited

namespace Catalogue

/-- The definitions, loaded now unless they are there. -/
def definitions (hooks : Hooks) (source : Source) : Session Catalogue (List Definition) := fun c =>
  match c.cached with
  | some ds => (c, pure ds)
  | none =>
    let r := load hooks source
    ({ c with cached := r.result.toOption, loads := c.loads + 1 }, r)

/-- The first definition of a name. -/
def get (hooks : Hooks) (source : Source) (name : Value) : Session Catalogue (Option Definition) := do
  return find? (← definitions hooks source) name

/-- Whether there is a definition of a name. -/
def contains (hooks : Hooks) (source : Source) (name : Value) : Session Catalogue Bool := do
  return (← get hooks source name).isSome

/-- What was found for an entity type before. -/
def found? (type : Key) : Session Catalogue (Option (List (Value × List Value))) := fun c =>
  (c, pure (c.byType.lookup type))

/-- Keeps what was found for an entity type. -/
def keepFound (type : Key) (related : List (Value × List Value)) : Session Catalogue Unit :=
  modify fun c => { c with byType := Assoc.insert type related c.byType }

/-- The types on the other side from an entity type, by relationship name; the type has to be fit for a key. -/
def related (hooks : Hooks) (source : Source) (type : Value) :
    Session Catalogue (List (Value × List Value)) := do
  let key ← type.toKey
  match ← found? key with
  | some m => return m
  | none =>
    let m := relatedTypes (← definitions hooks source) type
    keepFound key m
    return m

/-- The definitions, for what is computed from the types related to an entity type. -/
def definitionsFor (hooks : Hooks) (source : Source) (type : Value) : Session Catalogue (List Definition) := do
  let _ ← related hooks source type
  definitions hooks source

/-- Forgets the loaded definitions and what was found in them. -/
def reset : Session Catalogue Unit :=
  modify fun c => { c with cached := none, byType := [] }

end Catalogue

end EdgeFields

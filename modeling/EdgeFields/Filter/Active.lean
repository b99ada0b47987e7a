import EdgeFields.Catalogue
import EdgeFields.Filter.Clause
import EdgeFields.Text.Clean

/-!
# Active filters

Which relationship filters an entity type supports, and which of them a request turns on.  A filter is known by the
type on the other side unless the host names it otherwise.
-/

namespace EdgeFields.Filter

/-- The hooks and the stem of field keys that filters are resolved with. -/
structure Resolver where
  hooks : Hooks := {}
  stem : String := FieldKey.defaultStem

namespace Resolver

/-- Whether requests from a page are filtered. -/
def isFilterable (r : Resolver) (page : Value) : Except Fault Bool :=
  match r.hooks.isFilterablePage with
  | some f => f page
  | none => .ok true

/-- Files the field key of a pair under its filter name; without a name it is left out. -/
def fileFilter (r : Resolver) (entityType : Value) (m : List (Key × List Value)) (p : Related) :
    Except Fault (List (Key × List Value)) := do
  let name ← match r.hooks.filterName with
    | some f => f p.2 p.1 entityType
    | none => .ok p.2
  if !name.truthy then return m
  let field := Value.string (← FieldKey.derive r.stem p.1 p.2)
  let name ← name.toKey
  return Assoc.insert name (Value.union ((m.lookup name).getD []) [field]) m

/-- The field keys under each filter name, for an entity type on a page. -/
def supported (r : Resolver) (ds : List Definition) (entityType page : Value) : Except Fault Record := do
  let m ← (Catalogue.relatedPairs ds entityType).foldlM (r.fileFilter entityType) []
  Hooks.adjust (r.hooks.supportedFilters.map fun f ps => f ps entityType page)
    (m.map fun entry => (entry.1, .list entry.2))

/-- The text of a request value, cleaned; null has none. -/
def cleaned (v : Value) : String :=
  if v.isNull then "" else Text.clean v.toText

/-- A request value, cleaned item by item if it is a list. -/
def cleanedValue : Value → Value
  | .list xs => .list (xs.map fun x => .string (cleaned x))
  | v => .string (cleaned v)

/-- The field keys of a filter: one text stands for itself. -/
def keysOf : Value → Except Fault (List Value)
  | .string s => .ok [.string s]
  | v => v.elements

/-- Adds texts to those of a field key. -/
def addTexts (texts : List Value) (m : List (Key × List Value)) (field : Value) :
    Except Fault (List (Key × List Value)) := do
  let key ← field.toKey
  return Assoc.insert key (Value.union ((m.lookup key).getD []) texts) m

/-- Adds what the request asks of one filter. -/
def addFilter (r : Resolver) (params : Value) (m : List (Key × List Value)) (filter : Key × Value) :
    Except Fault (List (Key × List Value)) := do
  let raw ← params.member filter.1
  if !raw.truthy then return m
  let value ← Hooks.adjust (r.hooks.filterValue.map fun f v => f v raw) (cleanedValue raw)
  let texts ← textsOf value
  if texts.isEmpty then return m
  (← keysOf filter.2).foldlM (addTexts (texts.map Value.string)) m

/-- The values of each field key that a request filters by. -/
def requested (r : Resolver) (ds : List Definition) (entityType params page : Value) : Except Fault Record := do
  let m ← (← r.supported ds entityType page).foldlM (r.addFilter params) []
  Hooks.adjust (r.hooks.activeFilters.map fun f ps => f ps entityType page)
    (m.map fun entry => (entry.1, .list entry.2))

/-- The active filters of a request, for an entity type on a page.  The definitions are looked up only for a request
that may filter at all. -/
def resolve (r : Resolver) (source : Source) (entityType params page : Value) : Session Catalogue Record := do
  if !params.truthy || !entityType.truthy then return []
  if !(← r.isFilterable page) then return []
  let ds ← Catalogue.definitionsFor r.hooks source entityType
  let active ← r.requested ds entityType params page
  if !active.isEmpty then Report.note .debug .filters
  return active

end Resolver

end EdgeFields.Filter

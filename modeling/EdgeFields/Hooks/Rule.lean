import EdgeFields.Hooks
import EdgeFields.Text.Case
import EdgeFields.Value.Same

/-!
# Rules for hooks

Hooks written down as data: which keys a map keeps, how a list is cut and extended, what a mapping gets.  Each kind
of rule says what it does to a value, and `Rules.hooks` makes the hooks of all rules of a host.
-/

namespace EdgeFields

/-- Changes of a map, in this order: nothing is left of it, keys are dropped, values are set, only some keys stay. -/
structure MapRule where
  nothing : Bool := false
  drop : List Value := []
  set : List (Value × Value) := []
  only : Option (List Value) := none
  deriving Inhabited

/-- Changes of a list, in this order: nothing is left of it, texts with other ends and objects of some names go, the
first items stay, the order turns, the list becomes one query, and items are added. -/
structure ListRule (α : Type) where
  nothing : Bool := false
  suffix : Option String := none
  dropNames : List Value := []
  take : Value := .null
  reverse : Bool := false
  wrap : Bool := false
  append : List α := []
  deriving Inhabited

/-- Changes of a mapping: nothing is left of it, or fields and other members are set. -/
structure MappingRule where
  nothing : Bool := false
  properties : Record := []
  top : Record := []
  deriving Inhabited

/-- Changes of a projection before those of its map: an upper-case title, and a picture named after the slug. -/
structure ProjectionRule where
  upper : Bool := false
  logo : Bool := false
  map : MapRule := {}
  deriving Inhabited

/-- A page size for a relationship name and a type; null stands for any. -/
structure PageSizeRow where
  name : Value
  type : Value
  size : Value
  deriving Inhabited

/-- Filter names: none for hidden targets, a filled template for the others. -/
structure FilterNameRule where
  hide : List Value := []
  template : String := "%t"
  deriving Inhabited

/-- What becomes of a filter value. -/
inductive FilterValueRule where
  | lower
  | split
  | raw
  | const (v : Value)
  deriving Inhabited

namespace MapRule

/-- Takes away a key, which has to be fit for one. -/
def dropKey (m : Record) (k : Value) : Except Fault Record := do
  return Assoc.erase (← k.toKey) m

/-- Takes away a key; from a map without members nothing is taken, so there the key may be any value. -/
def dropPresent (m : Record) (k : Value) : Except Fault Record :=
  if m.isEmpty then .ok m else dropKey m k

/-- Sets the value of a key. -/
def setKey (m : Record) (p : Value × Value) : Except Fault Record := do
  return Assoc.insert (← p.1.toKey) p.2 m

/-- Carries out the rule, where `drop` is how a key is taken away; nothing if nothing is left. -/
def apply (rule : MapRule) (drop : Record → Value → Except Fault Record) (m : Record) :
    Except Fault (Option Record) := do
  if rule.nothing then return none
  let m ← rule.drop.foldlM drop m
  let m ← rule.set.foldlM setKey m
  return some (match rule.only with
    | some ks => m.filter fun p => ks.contains p.1.toValue
    | none => m)

/-- The rule on filters by name; nothing left counts as no filters. -/
def onFilters (rule : MapRule) (m : Record) : Except Fault Record := do
  return (← rule.apply dropKey m).getD []

end MapRule

/-- How the items of a list are seen by a rule. -/
structure ListItems (α : Type) where
  toValue : α → Value
  ofValue : Value → α

namespace ListItems

/-- Values as they are. -/
def values : ListItems Value := ⟨id, id⟩

/-- Declared relationships. -/
def declarations : ListItems Declaration := ⟨Declaration.toValue, .plain⟩

/-- Items of a batch. -/
def batchItems : ListItems BatchItem := ⟨BatchItem.toValue, .other⟩

end ListItems

namespace ListRule

variable {α : Type}

/-- Whether an item is a text with the given end; other items have no end. -/
def endsWith (items : ListItems α) (suffix : String) (a : α) : Except Fault Bool :=
  match items.toValue a with
  | .string s => .ok (suffix.toList.isSuffixOf s.toList)
  | v => .error (v.cannot "endswith")

/-- Whether an item is an object of one of the names. -/
def isNamed (items : ListItems α) (names : List Value) (a : α) : Bool :=
  match items.toValue a with
  | .object ms => names.contains ((ms.lookup (.string "name")).getD .null)
  | _ => false

/-- The first items of a list; a negative number leaves as many out at the end. -/
def takeFirst (n : Int) (xs : List α) : List α :=
  if n < 0 then xs.take (xs.length - n.natAbs) else xs.take n.toNat

/-- One query that requires all items. -/
def wrapped (items : ListItems α) (xs : List α) : α :=
  items.ofValue (.object [("bool", .object [("filter", .list (xs.map items.toValue))])])

/-- The items up to a number of them, all for null. -/
def upTo (n : Value) (xs : List α) : Except Fault (List α) :=
  match n with
  | .null => .ok xs
  | n => do return takeFirst (← n.toCount) xs

/-- Carries out the rule; nothing left counts as no items. -/
def apply (items : ListItems α) (rule : ListRule α) (xs : List α) : Except Fault (List α) := do
  if rule.nothing then return []
  let xs ← match rule.suffix with
    | some suffix => xs.filterM (endsWith items suffix)
    | none => .ok xs
  let xs := xs.filter fun a => !isNamed items rule.dropNames a
  let xs ← upTo rule.take xs
  let xs := if rule.reverse then xs.reverse else xs
  let xs := if rule.wrap then [wrapped items xs] else xs
  return xs ++ rule.append

end ListRule

namespace MappingRule

/-- The members of a mapping, which has to be an object. -/
def membersOf : Value → Except Fault Record
  | .object ms => .ok ms
  | _ => .error .wrongType

/-- Sets fields of a mapping, which has to hold its fields in an object even if none are set. -/
def setFields (fields mapping : Record) : Except Fault Record :=
  match mapping.lookup (.string "properties") with
  | some properties => do
    let known ← properties.membersTo "update"
    return Assoc.insert (.string "properties") (.object (Assoc.update known fields)) mapping
  | none => .error .noKey

/-- Carries out the rule. -/
def apply (rule : MappingRule) (mapping : Value) : Except Fault Value := do
  if rule.nothing then return .null
  let ms ← setFields rule.properties (← membersOf mapping)
  return .object (Assoc.update ms rule.top)

end MappingRule

namespace ProjectionRule

/-- The title in upper case. -/
def upperTitle (e : Entity) : Except Fault Value :=
  match e.title with
  | .string s => .ok (.string (Text.upper s))
  | v => .error (v.cannot "upper")

/-- The picture named after the slug. -/
def picture (e : Entity) : Except Fault Value :=
  match e.slug with
  | .string s => .ok (.string ("/" ++ s ++ ".png"))
  | _ => .error .wrongType

/-- Carries out the rule. -/
def apply (rule : ProjectionRule) (ms : Record) (e : Entity) : Except Fault Value := do
  let ms ← if rule.upper then do pure (Assoc.insert (.string "title") (← upperTitle e) ms) else pure ms
  let ms ← if rule.logo then do pure (Assoc.insert (.string "logo") (← picture e) ms) else pure ms
  return ((← rule.map.apply MapRule.dropPresent ms).map Value.object).getD .null

end ProjectionRule

/-- The size of the first row for a relationship name and a type, or the usual one. -/
def PageSizeRow.find (rows : List PageSizeRow) (name type usual : Value) : Value :=
  match rows.find? fun r => (r.name.isNull || r.name == name) && (r.type.isNull || r.type == type) with
  | some r => r.size
  | none => usual

/-- The name for a target type, a relationship name and an entity type, null for a hidden target. -/
def FilterNameRule.apply (rule : FilterNameRule) (target name entityType : Value) : Except Fault Value := do
  if rule.hide.contains target then return .null
  match name, target, entityType with
  | .string r, .string t, .string e =>
    return .string (((rule.template.replace "%r" r).replace "%t" t).replace "%e" e)
  | _, _, _ => throw .wrongType

/-- The parts of a text between its commas. -/
def commaParts (s : String) : List Value :=
  (s.splitOn ",").map Value.string

/-- The parts of a value between the commas of its texts. -/
def splitValue : Value → Except Fault (List Value)
  | .string s => .ok (commaParts s)
  | _ => .error .noMember

/-- Carries out the rule on a cleaned and a raw value. -/
def FilterValueRule.apply (rule : FilterValueRule) (value raw : Value) : Except Fault Value :=
  match rule, value with
  | lower, .string s => .ok (.string (Text.lower s))
  | lower, _ => .error .noMember
  | split, .list xs => do return .list ((← xs.mapM splitValue).flatten)
  | split, v => do return .list (← splitValue v)
  | .raw, _ => .ok raw
  | const v, _ => .ok v

/-- The rules of a host; hooks without a rule change nothing. -/
structure Rules where
  relationships : Option (ListRule Declaration) := none
  pageSize : Option (List PageSizeRow) := none
  projection : Option ProjectionRule := none
  relationshipData : Option (ListRule BatchItem) := none
  defaultMapping : Option MappingRule := none
  fieldMappings : List (Key × MappingRule) := []
  mappingFields : Option (ListRule Value) := none
  rejectedPages : Option (List Value) := none
  filterName : Option FilterNameRule := none
  supportedFilters : Option MapRule := none
  filterValue : Option FilterValueRule := none
  activeFilters : Option MapRule := none
  filterQueries : Option (ListRule Value) := none
  deriving Inhabited

/-- The hooks that carry out the rules of a host. -/
def Rules.hooks (r : Rules) : Hooks :=
  { relationships := r.relationships.map fun rule => rule.apply .declarations
    pageSize := r.pageSize.map fun rows name type usual => .ok (PageSizeRow.find rows name type usual)
    projection := r.projection.map fun rule => rule.apply
    relationshipData := r.relationshipData.map fun rule items _ _ => rule.apply .batchItems items
    defaultMapping := r.defaultMapping.map fun rule => rule.apply
    fieldMappings := r.fieldMappings.map fun entry => (entry.1, entry.2.apply)
    mappingFields := r.mappingFields.map fun rule keys _ => rule.apply .values keys
    isFilterablePage := r.rejectedPages.map fun pages page => .ok (!pages.contains page)
    filterName := r.filterName.map fun rule => rule.apply
    supportedFilters := r.supportedFilters.map fun rule m _ _ => rule.onFilters m
    filterValue := r.filterValue.map fun rule => rule.apply
    activeFilters := r.activeFilters.map fun rule m _ _ => rule.onFilters m
    filterQueries := r.filterQueries.map fun rule cs _ => rule.apply .values cs }

end EdgeFields

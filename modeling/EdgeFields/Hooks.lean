import EdgeFields.Definition
import EdgeFields.Entity
import EdgeFields.Operation

/-!
# Hooks

Functions that a host may hand in to adjust what the library computes.  Each takes the computed value, with what it
was computed from, and answers the value to use; it may fail.
-/

namespace EdgeFields

/-- The adjustments of a host; those left out change nothing. -/
structure Hooks where
  /-- From the declared relationships to those to load. -/
  relationships : Option (List Declaration → Except Fault (List Declaration)) := none
  /-- The page size for a relationship name and a type, from the usual one. -/
  pageSize : Option (Value → Value → Value → Except Fault Value) := none
  /-- From the summary of an entity to its projection. -/
  projection : Option (Record → Entity → Except Fault Value) := none
  /-- From the operations of an edge event, with its two entities, to those to send. -/
  relationshipData : Option (List BatchItem → Entity → Entity → Except Fault (List BatchItem)) := none
  /-- From the usual mapping of a field to the one to use for all fields. -/
  defaultMapping : Option (Value → Except Fault Value) := none
  /-- For single field keys, from the mapping for all fields to the one to use. -/
  fieldMappings : List (Key × (Value → Except Fault Value)) := []
  /-- From the field keys to map to those that are mapped. -/
  mappingFields : Option (List Value → List Definition → Except Fault (List Value)) := none
  /-- Whether requests from a page are filtered. -/
  isFilterablePage : Option (Value → Except Fault Bool) := none
  /-- The filter name for a target type, a relationship name and an entity type. -/
  filterName : Option (Value → Value → Value → Except Fault Value) := none
  /-- From the supported filters of an entity type on a page to those to offer. -/
  supportedFilters : Option (Record → Value → Value → Except Fault Record) := none
  /-- From a cleaned and a raw request value to the filter value. -/
  filterValue : Option (Value → Value → Except Fault Value) := none
  /-- From the active filters of an entity type on a page to those to apply. -/
  activeFilters : Option (Record → Value → Value → Except Fault Record) := none
  /-- From the compiled filter clauses to those to search with. -/
  filterQueries : Option (List Value → Record → Except Fault (List Value)) := none

/-- Applies a hook to a value, or keeps the value when there is no hook. -/
def Hooks.adjust {α : Type} (hook : Option (α → Except Fault α)) (a : α) : Except Fault α :=
  match hook with
  | some f => f a
  | none => .ok a

end EdgeFields

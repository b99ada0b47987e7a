import EdgeFields.EdgeEvent
import EdgeFields.Filter.Active
import EdgeFields.Filter.Search
import EdgeFields.Index.Batch
import EdgeFields.Schema
import EdgeFields.Settings

/-!
# Gateway

Where the events of a host meet the index: edge events become bulk requests, documents get their relationship
fields, and searches their filters.  The connection to the index is made when it is first needed.
-/

namespace EdgeFields

/-- The settings and the hooks of a host. -/
structure Gateway where
  settings : Settings := {}
  hooks : Hooks := {}

/-- The host's side of a request: its declared relationships and its entities. -/
structure Host where
  source : Source
  store : Store

/-- What a gateway keeps: its engine, the connections it made, and the index behind them. -/
structure GatewayState (σ : Type) where
  index : σ
  connected : Bool := true
  connections : List Connection := []
  engine : Engine := {}

namespace Gateway

/-- The stem of field keys. -/
def stem (g : Gateway) : String :=
  g.settings.fieldStem.toText

/-- How related entities are embedded. -/
def projector (g : Gateway) : Projector :=
  { hooks := g.hooks, stem := g.stem, pageSize := g.settings.pageSize }

/-- How the schema is derived. -/
def schema (g : Gateway) : Schema :=
  { hooks := g.hooks, stem := g.stem, indexName := g.settings.indexName }

/-- How batches are sent. -/
def batch (g : Gateway) : Batch :=
  { indexName := g.settings.indexName, retryOnConflict := g.settings.retryOnConflict,
    refresh := g.settings.refresh }

/-- How filters are resolved. -/
def resolver (g : Gateway) : Filter.Resolver :=
  { hooks := g.hooks, stem := g.stem }

variable {σ α : Type}

/-- Runs a session of the engine. -/
def onEngine (m : Session Engine α) : Session (GatewayState σ) α :=
  Session.on GatewayState.engine (fun e s => { s with engine := e }) m

/-- Runs requests to the index. -/
def onIndex (m : Session σ α) : Session (GatewayState σ) α :=
  Session.on GatewayState.index (fun i s => { s with index := i }) m

/-- Runs a look-up in the catalogue. -/
def onCatalogue (m : Session Catalogue α) : Session (GatewayState σ) α :=
  onEngine (Engine.lookUp m)

/-- The loaded definitions. -/
def definitions (g : Gateway) (h : Host) : Session (GatewayState σ) (List Definition) :=
  onCatalogue (Catalogue.definitions g.hooks h.source)

/-- Makes the connection to the index unless it is there. -/
def connect (g : Gateway) : Session (GatewayState σ) Unit :=
  modify fun s =>
    if s.connected then s
    else { s with connected := true, connections := s.connections ++ [g.settings.connection] }

/-- Sends operations as one bulk request; nothing is sent when there are none. -/
def dispatch (g : Gateway) (client : Client σ) (items : List BatchItem) :
    Session (GatewayState σ) (Option BulkResult) := do
  if items.isEmpty then return none
  g.connect
  return some (← onIndex (g.batch.dispatch client items))

/-- Carries an edge event into the documents of its two entities. -/
def edge (g : Gateway) (client : Client σ) (h : Host) (action : Action) (ev : EdgeEvent) :
    Session (GatewayState σ) (Option BulkResult) := do
  g.dispatch client (← onEngine (Engine.edge g.projector h.source h.store action ev))

/-- Replaces the relationship fields in the documents of some entities. -/
def resync (g : Gateway) (client : Client σ) (h : Host) (es : List Entity) :
    Session (GatewayState σ) (Option BulkResult) := do
  let ops ← es.mapM fun e => onEngine (Engine.reproject g.projector h.source h.store e)
  g.dispatch client (ops.flatten.map BatchItem.operation)

/-- Relationship fields as members of a document. -/
def fieldRecord (fields : Fields) : Record :=
  fields.map fun f => (.string f.1, .list f.2)

/-- A document with the relationship fields of its entity; nothing if there are none and it stays as it is. -/
def augment (g : Gateway) (h : Host) (e : Entity) (doc : Value) :
    Session (GatewayState σ) (Option Value) := do
  let fields ← onEngine (Engine.fullIndex g.projector h.source h.store e)
  if fields.isEmpty then return none
  return some (.object (Assoc.update (← doc.toRecord) (fieldRecord fields)))

/-- The mappings of all relationship fields. -/
def properties (g : Gateway) (h : Host) : Session (GatewayState σ) Record := do
  g.schema.properties ((← g.definitions h).map Declaration.definition)

/-- The body that creates an index, with the relationship fields in it; nothing if it stays as it is. -/
def applyMapping (g : Gateway) (h : Host) (body indexName : Value) :
    Session (GatewayState σ) (Option Value) := do
  g.schema.applyTo body indexName ((← g.definitions h).map Declaration.definition)

/-- Puts the mappings of all relationship fields on the index; nothing is put when there are none. -/
def putMapping (g : Gateway) (client : Client σ) (h : Host) : Session (GatewayState σ) (Option Value) := do
  g.connect
  match ← g.schema.toPut .null ((← g.definitions h).map Declaration.definition) with
  | some (target, properties) => return some (← onIndex (client.putMapping target properties))
  | none => return none

/-- The active filters of a request. -/
def activeFilters (g : Gateway) (h : Host) (entityType params page : Value) :
    Session (GatewayState σ) Record :=
  onCatalogue (g.resolver.resolve h.source entityType params page)

/-- A search body with the filters of a request; nothing if it stays as it is. -/
def filterSearch (g : Gateway) (h : Host) (body entityType params page : Value) :
    Session (GatewayState σ) (Option Value) := do
  Filter.compile g.hooks (← g.activeFilters h entityType params page) body

/-- The number of relationships and the counts of the engine. -/
def stats (g : Gateway) (h : Host) : Session (GatewayState σ) (Nat × Stats) := do
  let ds ← g.definitions h
  return (ds.length, (← get).engine.stats)

end Gateway

end EdgeFields

import EdgeFields.Index.Batch
import EdgeFields.Index.Failure

/-!
# An index in memory

Documents with sequence numbers that grow with every change, and scripts carried out as `Document.apply` says.  The
next request can be planned to fail or to get a fixed answer, and rival writers can be lined up to change a document
just before a conditional write.  Requests are recorded.
-/

namespace EdgeFields

/-- A document and its sequence number. -/
structure Versioned where
  source : Value
  seqNo : Nat := 0
  deriving Inhabited

/-- A request that an index got. -/
inductive Request where
  | bulk (ids : List Value) (options : Record)
  | get (index : Value) (id : String)
  | put (index : Value) (id : String) (source seqNo primaryTerm : Value) (options : Record)
  | putMapping (index : Value) (properties : Record)
  deriving Inhabited

/-- What the next request gets. -/
inductive Plan where
  | response (v : Value)
  | failure (f : IndexFailure)
  deriving Inhabited

/-- Another writer, who changes a document or deletes it. -/
inductive Rival where
  | change (item : BatchItem)
  | delete
  deriving Inhabited

/-- An index in memory. -/
structure MemoryIndex where
  documents : List (String × Versioned) := []
  plan : Option Plan := none
  rivals : List Rival := []
  requests : List Request := []
  deriving Inhabited

namespace MemoryIndex

/-- An index with these documents, none of them changed yet. -/
def ofDocuments (ds : List (String × Value)) : MemoryIndex :=
  { documents := ds.map fun d => (d.1, { source := d.2 }) }

/-- The sources of all documents. -/
def sources (ix : MemoryIndex) : List (String × Value) :=
  ix.documents.map fun d => (d.1, d.2.source)

/-- Stores a changed document under the next sequence number. -/
def store (id : String) (source : Value) (seqNo : Nat) : Session MemoryIndex Unit :=
  modify fun ix => { ix with documents := Assoc.insert id ⟨source, seqNo + 1⟩ ix.documents }

/-- Deletes a document. -/
def delete (id : String) : Session MemoryIndex Unit :=
  modify fun ix => { ix with documents := Assoc.erase id ix.documents }

/-- Records a request. -/
def record (r : Request) : Session MemoryIndex Unit :=
  modify fun ix => { ix with requests := ix.requests ++ [r] }

/-- Takes the plan for this request, if there is one. -/
def takePlan : Session MemoryIndex (Option Plan) :=
  modifyGet fun ix => (ix.plan, { ix with plan := none })

/-- Fails as planned.  The name of an error answer is looked up by its status, which has to be fit for a key. -/
def fail {α : Type} (f : IndexFailure) : Session MemoryIndex α := do
  if let .api status _ _ := f then
    let _ ← status.toKey
  throw (.index f)

/-- Carries out an item of a batch on a document; whether it changed it, nothing if there is no such document. -/
def perform (id : String) (item : BatchItem) : Session MemoryIndex (Option Bool) := do
  match (← get).documents.lookup id with
  | none => return none
  | some d =>
    let (source, outcome) := (Document.perform item).run d.source
    let changed ← outcome
    if changed then store id source d.seqNo
    return some changed

/-- A required member. -/
def required (k : Key) (v : Value) : Except Fault Value :=
  match v with
  | .object ms =>
    match ms.lookup k with
    | some x => .ok x
    | none => .error .noKey
  | _ => .error .wrongType

/-- The operation that a body line asks for. -/
def decode (body : Value) : Except Fault Operation := do
  let script ← required "script" body
  let source ← required "source" script
  let params ← required "params" script
  let field ← required "field" params
  match Script.action? source.toText with
  | some .replace =>
    let values ← (← required "values" params).elements
    return { owner := .null, field := field, action := .known .replace, projections := values }
  | some a =>
    return { owner := .null, field := field, action := .known a, projection := ← required "value" params }
  | none => throw .noKey

/-- The answer for a document that is not there. -/
def missingItem : Value :=
  .object [("update", .object [
    ("status", .int 404),
    ("error", .object [("type", .string "document_missing_exception")])])]

/-- The answer for an operation that was carried out. -/
def doneItem (changed : Bool) : Value :=
  .object [("update", .object [
    ("status", .int 200),
    ("result", .string (if changed then "updated" else "noop"))])]

/-- The document that a header line names. -/
def headerId (header : Value) : Except Fault Value := do
  required "_id" (← required "update" header)

/-- Carries out one header and body line. -/
def update (header body : Value) : Session MemoryIndex Value := do
  let id ← headerId header
  let op ← decode body
  match ← perform id.toText (.operation op) with
  | none => return missingItem
  | some changed => return doneItem changed

/-- Carries out the lines of a bulk request, two by two. -/
def updates : List Value → Session MemoryIndex (List Value)
  | header :: body :: rest => do
    let item ← update header body
    return item :: (← updates rest)
  | _ => return []

/-- The documents that the header lines of a bulk request name. -/
def headerIds : List Value → Except Fault (List Value)
  | header :: _ :: rest => do return (← headerId header) :: (← headerIds rest)
  | _ => .ok []

/-- A bulk request. -/
def bulk (lines : List Value) (options : Record) : Session MemoryIndex Value := do
  record (.bulk (← headerIds lines) options)
  match ← takePlan with
  | some (.failure f) => fail f
  | some (.response v) => return v
  | none => return .object [("took", .int 1), ("items", .list (← updates lines))]

/-- A document as a fixed answer gives it. -/
def fetchedOf (v : Value) : Except Fault Fetched := do
  return {
    source := ← required "_source" v
    seqNo := (required "_seq_no" v).toOption
    primaryTerm := (required "_primary_term" v).toOption }

/-- Reads a document. -/
def fetch (index : Value) (id : String) : Session MemoryIndex Fetched := do
  record (.get index id)
  match ← takePlan with
  | some (.failure f) => fail f
  | some (.response v) => fetchedOf v
  | none =>
    match (← get).documents.lookup id with
    | some d => return { source := d.source, seqNo := some (.int d.seqNo), primaryTerm := some (.int 1) }
    | none => throw (.index .missing)

/-- Lets the next rival change a document. -/
def rivalTurn (id : String) : Session MemoryIndex Unit := do
  match ← modifyGet fun ix => (ix.rivals.head?, { ix with rivals := ix.rivals.tail }) with
  | some .delete => delete id
  | some (.change item) =>
    let _ ← perform id item
    return
  | none => return

/-- Writes a document if it is still the one that was read. -/
def write (index : Value) (id : String) (source seqNo primaryTerm : Value) (options : Record) :
    Session MemoryIndex Unit := do
  record (.put index id source seqNo primaryTerm options)
  rivalTurn id
  match (← get).documents.lookup id with
  | some d => if (Value.int d.seqNo).equal seqNo then store id source d.seqNo else throw (.index .conflict)
  | none => throw (.index .conflict)

/-- Adds field mappings. -/
def putMapping (index : Value) (properties : Record) : Session MemoryIndex Value := do
  record (.putMapping index properties)
  return .object [("acknowledged", .bool true)]

/-- The requests to an index in memory. -/
def client : Client MemoryIndex :=
  { bulk := bulk, get := fetch, put := write, putMapping := putMapping, describe := IndexFailure.text }

end MemoryIndex

end EdgeFields

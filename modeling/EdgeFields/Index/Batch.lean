import EdgeFields.Index.Client
import EdgeFields.Index.Script
import EdgeFields.Json.Compact

/-!
# Batches

Operations are sent as one bulk request, each as a header line that names the document and a body line with the
script and its parameters.  A batch with an item that cannot be sent is refused as a whole.  The index answers for
each item, in order, and a failed item does not stop the others.
-/

namespace EdgeFields

/-- Where batches are sent and how. -/
structure Batch where
  indexName : Value
  retryOnConflict : Value := .int 3
  refresh : Value := .null
  deriving Inhabited

/-- The outcome of one operation. -/
structure ItemResult where
  operation : Operation
  status : Int
  result : Value
  error : Value
  deriving Inhabited

/-- The outcomes of a batch, in its order. -/
structure BulkResult where
  items : List ItemResult := []
  took : Int := 0
  deriving Inhabited

namespace ItemResult

/-- Whether the operation was carried out. -/
def success (r : ItemResult) : Bool :=
  r.error.isNull && 200 ≤ r.status && r.status < 300

/-- An outcome as a value. -/
def toRecord (r : ItemResult) : Record :=
  [("operation", .object r.operation.toRecord), ("status", .int r.status), ("result", r.result),
    ("error", r.error), ("success", .bool r.success)]

end ItemResult

namespace BulkResult

/-- The operations that were carried out. -/
def succeeded (r : BulkResult) : List ItemResult :=
  r.items.filter ItemResult.success

/-- The operations that were not carried out. -/
def failed (r : BulkResult) : List ItemResult :=
  r.items.filter fun item => !item.success

/-- Whether an operation was not carried out. -/
def errors (r : BulkResult) : Bool :=
  r.items.any fun item => !item.success

/-- The operations that changed nothing. -/
def noops (r : BulkResult) : List ItemResult :=
  r.items.filter fun item => item.result == .string "noop"

/-- The counts of a batch, as a value. -/
def stats (r : BulkResult) : Record :=
  [("total", .int r.items.length), ("succeeded", .int r.succeeded.length), ("failed", .int r.failed.length),
    ("noop", .int r.noops.length), ("took", .int r.took)]

end BulkResult

namespace Batch

/-- Whether an operation says which entity it is about; a replacement need not. -/
def namesEntity (op : Operation) : Action → Except Fault Bool
  | .replace => .ok true
  | .upsert | .remove => do return !(← op.entityId).isNull

/-- The operation and the action of an item at `position`, which has to be fit to be sent. -/
def check (position : Nat) : BatchItem → Except Fault (Operation × Action)
  | .other v => .error (.invalidItem position (.notAnOperation v))
  | .operation op =>
    match op.action with
    | .other v => .error (.invalidItem position (.invalidAction v))
    | .known a => do
      if !(← namesEntity op a) then throw (.invalidItem position (.noEntityId a.word))
      if !op.field.truthy then throw (.invalidItem position .emptyField)
      return (op, a)

/-- The operations of a batch, from a position on; the first item that cannot be sent is refused. -/
def validateFrom : Nat → List BatchItem → Except Fault (List (Operation × Action))
  | _, [] => .ok []
  | position, item :: items => do return (← check position item) :: (← validateFrom (position + 1) items)

/-- The operations of a batch. -/
def validate (items : List BatchItem) : Except Fault (List (Operation × Action)) :=
  validateFrom 0 items

/-- The line that names the document of an operation. -/
def header (b : Batch) (op : Operation) : Value :=
  .object [("update", .object [
    ("_index", b.indexName),
    ("_id", .string op.owner.toText),
    ("retry_on_conflict", b.retryOnConflict)])]

/-- The line with the script of an operation and its parameters. -/
def body (op : Operation) (a : Action) : Except Fault Value := do
  return .object [("script", .object [
    ("source", .string (Script.source a)),
    ("lang", .string "painless"),
    ("params", .object (← op.params))])]

/-- The header and the body line of each operation. -/
def pairs (b : Batch) (ops : List (Operation × Action)) : Except Fault (List (Value × Value)) :=
  ops.mapM fun (op, a) => do return (b.header op, ← body op a)

/-- The lines of some pairs, in order. -/
def flatten (ps : List (Value × Value)) : List Value :=
  ps.flatMap fun p => [p.1, p.2]

/-- The lines of a bulk request. -/
def lines (b : Batch) (items : List BatchItem) : Except Fault (List Value) := do
  return flatten (← b.pairs (← validate items))

/-- The outcome of an operation, from the item that the index answered for it. -/
def outcome (op : Operation) (item : Value) : Except Fault ItemResult := do
  let answer ← if item.truthy then
      match item with
      | .object ((_, v) :: _) => .ok v
      | v => .error (v.cannot "values")
    else .ok (.object [])
  match answer with
  | .object ms => return {
      operation := op
      status := ← ((ms.lookup (.string "status")).getD (.int 0)).toInteger
      result := (ms.lookup (.string "result")).getD .null
      error := (ms.lookup (.string "error")).getD .null }
  | v => throw (v.cannot "get")

/-- A value, or zero if it is not present. -/
def orZero (v : Value) : Value :=
  if v.truthy then v else .int 0

/-- The outcomes of a batch, from the answer of the index. -/
def collect (ops : List Operation) (response : Value) : Except Fault BulkResult := do
  let items ← response.member "items"
  let items ← if items.truthy then items.elements else .ok []
  if items.length ≠ ops.length then throw (.bulk (.itemCount items.length ops.length))
  return {
    items := ← (ops.zip items).mapM fun (op, item) => outcome op item
    took := ← (orZero (← response.member "took")).toInteger }

/-- Sends lines; a failure of the request as a whole is noticed and named. -/
def send {σ : Type} (b : Batch) (client : Client σ) (lines : List Value) : Session σ Value :=
  tryCatch (client.bulk lines (refreshOptions b.refresh)) fun fault => do
    match fault with
    | .index .unrelated => throw fault
    | .index failure =>
      let text ← client.describe failure
      Report.note .error .batches
      throw (.bulk (if failure.isAnswer then .rejected failure text else .transport failure text))
    | _ => throw fault

/-- Sends a batch as one request and answers the outcome of each operation; an empty batch is not sent. -/
def dispatch {σ : Type} (b : Batch) (client : Client σ) (items : List BatchItem) : Session σ BulkResult := do
  let ops ← validate items
  let ps ← b.pairs ops
  if ps.isEmpty then return {}
  let response ← b.send client (flatten ps)
  let result ← collect (ops.map (·.1)) response
  result.failed.forM fun _ => Report.note .warning .batches
  Report.note .info .batches
  return result

end Batch

end EdgeFields

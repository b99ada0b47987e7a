import EdgeFields.Index.Client

/-!
# Conditional writes

A single operation is written by reading the document, applying the operation and writing the result back on the
condition that nobody changed the document in between.  A conflict means that somebody did; the whole is then tried
again, up to a number of attempts.
-/

namespace EdgeFields

/-- Where single operations are written, and how often it is tried. -/
structure Writer where
  indexName : Value
  maxAttempts : Value := .int 5
  refresh : Value := .null
  deriving Inhabited

/-- How a write ended. -/
inductive Written where
  | updated
  | noop
  | notFound
  deriving DecidableEq, Repr, Inhabited

/-- The word for how a write ended. -/
def Written.word : Written → String
  | updated => "updated"
  | noop => "noop"
  | notFound => "not_found"

namespace Writer

/-- A writer with at least one attempt. -/
def ofValues (indexName maxAttempts refresh : Value) : Except Fault Writer := do
  if ← maxAttempts.isBelow 1 then throw .noAttempts
  return ⟨indexName, maxAttempts, refresh⟩

variable {σ : Type}

/-- Reads the document of an operation; nothing if there is none. -/
def read (w : Writer) (client : Client σ) (id : String) : Session σ (Option Fetched) :=
  tryCatch (do return some (← client.get w.indexName id)) fun fault => do
    match fault with
    | .index failure =>
      if !failure.hasStatus 404 then throw fault
      Report.note .debug .writes
      return none
    | _ => throw fault

/-- What the index has to have told. -/
def told : Option Value → Except Fault Value
  | some v => .ok v
  | none => .error .noKey

/-- Writes a document back; whether nobody changed it in between.  At the last attempt a conflict is a fault. -/
def putBack (w : Writer) (client : Client σ) (id : String) (d : Fetched) (source : Value) (last : Bool) :
    Session σ Bool := do
  let seqNo ← told d.seqNo
  let primaryTerm ← told d.primaryTerm
  tryCatch (do
      client.put w.indexName id source seqNo primaryTerm (refreshOptions w.refresh)
      return true) fun fault => do
    match fault with
    | .index failure =>
      if !failure.hasStatus 409 then throw fault
      if last then
        Report.note .warning .writes
        throw fault
      Report.note .debug .writes
      return false
    | _ => throw fault

/-- Tries to write an item of a batch to a document, as often as attempts are left. -/
def attempt (w : Writer) (client : Client σ) (id : String) (item : BatchItem) : Nat → Session σ Written
  | 0 => return .noop
  | left + 1 => do
    match ← w.read client id with
    | none => return .notFound
    | some d =>
      let (source, outcome) := (Document.perform item).run d.source
      if ← outcome then
        if ← w.putBack client id d source (left == 0) then
          return .updated
        else
          attempt w client id item left
      else
        return .noop

/-- Writes an item of a batch to the document of its entity. -/
def write (w : Writer) (client : Client σ) (item : BatchItem) : Session σ Written := do
  let owner ← item.owner
  w.attempt client owner.toText item (← w.maxAttempts.toCount).toNat

end Writer

end EdgeFields

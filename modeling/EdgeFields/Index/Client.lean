import EdgeFields.Document
import EdgeFields.Hooks
import EdgeFields.Session

/-!
# Index clients

What the library asks of an index, whose state is of any type `σ`.  A failed request is the fault `index`, and how it
is put into words is the client's.
-/

namespace EdgeFields

/-- A document as it was read, with what a conditional write of it has to name, if the index told. -/
structure Fetched where
  source : Value
  seqNo : Option Value
  primaryTerm : Option Value
  deriving Inhabited

/-- The requests to an index. -/
structure Client (σ : Type) where
  /-- Sends the lines of a bulk request. -/
  bulk : List Value → Record → Session σ Value
  /-- Reads a document of an index. -/
  get : Value → String → Session σ Fetched
  /-- Writes a document if its sequence number and primary term are still the given ones. -/
  put : Value → String → Value → Value → Value → Record → Session σ Unit
  /-- Adds field mappings to an index. -/
  putMapping : Value → Record → Session σ Value
  /-- The text of a failed request, for messages. -/
  describe : IndexFailure → Except Fault String

/-- The options of a write: when it becomes visible, if anything is asked for. -/
def refreshOptions (refresh : Value) : Record :=
  if refresh.truthy then [("refresh", refresh)] else []

end EdgeFields

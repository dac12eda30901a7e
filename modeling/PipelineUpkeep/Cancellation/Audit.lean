import PipelineUpkeep.Pipeline.Records
/-!
# The audit trail

One record for each pipeline that was canceled on behalf of a newer one.  Its
link is left out of the written form when there is none.
-/

namespace PipelineUpkeep

open Data Time

structure AuditRecord where
  canceledPipelineId : Nat
  canceledById : Nat
  canceledBySource : Source
  canceledAt : Timestamp
  pipelineUrl : Option String
  deriving DecidableEq, Repr, Inhabited

namespace AuditRecord

/-- The same in every record. -/
def note : String := "Pipeline auto-canceled by a newer pipeline on the same ref"

def encode (entry : AuditRecord) : Value :=
  .table ([("message", .text note), ("canceled_pipeline_id", .nat entry.canceledPipelineId),
    ("canceled_by_pipeline_id", .nat entry.canceledById),
    ("canceled_by_pipeline_source", .text entry.canceledBySource.name),
    ("canceled_at", encodeTimestamp entry.canceledAt)] ++
    match entry.pipelineUrl with
    | some url => [("pipeline_url", .text url)]
    | none => [])

end AuditRecord

end PipelineUpkeep

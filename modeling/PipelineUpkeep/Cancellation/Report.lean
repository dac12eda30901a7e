import PipelineUpkeep.Cancellation.Selection
import PipelineUpkeep.Cancellation.Summary
/-!
# Reports of cancellation runs

A run completes, is skipped for a reason, or is abandoned after too many
conflicts; what an abandoned run has canceled stays canceled.
-/

namespace PipelineUpkeep

open Data

inductive SkipReason where
  | childPipeline
  | autoCancelDisabled
  deriving DecidableEq, Repr

namespace SkipReason

/-- The name in files. -/
def name : SkipReason → String
  | childPipeline => "child_pipeline"
  | autoCancelDisabled => "auto_cancel_disabled"

/-- The name on screen. -/
def label : SkipReason → String
  | childPipeline => "ChildPipeline"
  | autoCancelDisabled => "AutoCancelDisabled"

end SkipReason

inductive CancellationOutcome where
  | completed
  | skipped (reason : SkipReason)
  | abandoned (attempts : Nat)
  deriving DecidableEq, Repr

structure CancellationReport where
  pipelineId : Nat
  outcome : CancellationOutcome
  strategy : Option Strategy
  summary : CancellationSummary

namespace CancellationReport

/-- The report of a run that did nothing. -/
def ofSkip (pipelineId : Nat) (reason : SkipReason) : CancellationReport :=
  ⟨pipelineId, .skipped reason, none, .empty⟩

def outcomeEntries : CancellationOutcome → List (String × Value)
  | .completed => [("status", .text "completed")]
  | .skipped reason => [("status", .text "skipped"), ("reason", .text reason.name)]
  | .abandoned attempts => [("status", .text "abandoned"), ("attempts", .nat attempts)]

/-- The attempts of an abandoned run stand twice, first those of its outcome. -/
def encode (report : CancellationReport) : Value :=
  .table ([("pipeline_id", .nat report.pipelineId)] ++ outcomeEntries report.outcome ++
    (match report.strategy with
      | some strategy => [("strategy", .text strategy.name)]
      | none => []) ++
    report.summary.entries)

end CancellationReport

end PipelineUpkeep

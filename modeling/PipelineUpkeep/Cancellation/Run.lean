import PipelineUpkeep.Cancellation.Pass
import PipelineUpkeep.Cancellation.Report
import PipelineUpkeep.Cancellation.Retry
import PipelineUpkeep.Cancellation.Settings
/-!
# Cancellation runs

A run cancels the pipelines that a new pipeline makes redundant.  The policy and
the query for the candidates are fixed once; every pass reads the candidates
anew.  Too many conflicts abandon the run, which is an outcome and not an error;
any other failure of the store is.
-/

namespace PipelineUpkeep

/-- The lock of a run. -/
def CancellationSettings.lock (settings : CancellationSettings) : OptimisticLock :=
  ⟨"cancel_pending_pipelines", settings.maxLockAttempts, settings.lockBackoff⟩

/-- Pass over the candidates until a pass ends without a conflict. -/
def cancelCandidates (settings : CancellationSettings) (context : PassContext)
    (candidates : Query) : Program (Except UpkeepError Unit × CancellationSummary) := do
  if candidates.isEmptyScope then return (.ok (), .empty)
  else
    let (result, summary) ← settings.lock.retry
      (fun attempt summary => context.runPass candidates (summary.startPass attempt)) .empty
    return (result.map fun _ => (), summary)

/-- The report of a run over selected candidates. -/
def reportRun (pipeline : Pipeline) (strategy : Strategy)
    (run : Except UpkeepError Unit × CancellationSummary) :
    Program (Except UpkeepError CancellationReport) := do
  let finish (outcome : CancellationOutcome) : Program (Except UpkeepError CancellationReport) := do
    let count := run.2.canceled.toList.length
    if count > 0 then
      Program.info
        s!"Pipeline {pipeline.id} canceled {count} redundant pipeline(s) on {pipeline.ref}"
    return .ok ⟨pipeline.id, outcome, some strategy, run.2⟩
  match run.1 with
  | .ok () => finish .completed
  | .error (.lockRetriesExhausted name attempts) => do
      Program.warn (s!"Giving up on canceling redundant pipelines for pipeline {pipeline.id}: " ++
        s!"lock '{name}' conflicted {attempts} times")
      finish (.abandoned attempts)
  | .error error => return .error error

/-- Cancel the pipelines that `pipeline` makes redundant. -/
def cancelRedundant (rules : PolicyRules) (settings : CancellationSettings)
    (pipeline : Pipeline) : Program (Except UpkeepError CancellationReport) := do
  if pipeline.isChild then return .ok (.ofSkip pipeline.id .childPipeline)
  else
    match ← Program.project .engine pipeline.projectId with
    | .error error => return .error (.store error)
    | .ok none => return .error (.store (.notFound .project pipeline.projectId))
    | .ok (some project) =>
        -- The policy is read once, for all attempts.
        let policy := rules.resolve project
        if !policy.autoCancelPendingPipelines then
          return .ok (.ofSkip pipeline.id .autoCancelDisabled)
        else
          let now ← Program.readClock
          match ← selectCandidates pipeline policy settings.lookback now with
          | .error error => return .error (.store error)
          | .ok candidates =>
              let context : PassContext := {
                initiator := pipeline
                links := settings.webBaseUrl.map (PipelineLinks.ofAddress · project.path)
                batchSize := settings.batchSize }
              let run ← cancelCandidates settings context candidates
              reportRun pipeline (Strategy.ofPolicy policy) run

end PipelineUpkeep

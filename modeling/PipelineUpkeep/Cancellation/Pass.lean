import PipelineUpkeep.Cancellation.Summary
import PipelineUpkeep.Program.Basic
import PipelineUpkeep.Remote.Link
/-!
# Passes over the candidates

A pass reads the candidates in batches in the order of their identifiers, each
batch starting after the last identifier of the one before.  Of each batch it
cancels the pipelines none of whose builds blocks cancellation.  The rows of a
batch are read again by identifier before they are canceled, so a row that was
written since surfaces as a conflict and ends the pass.
-/

namespace PipelineUpkeep

/-- What a pass needs to know besides its candidates. -/
structure PassContext where
  /-- The pipeline on whose behalf others are canceled. -/
  initiator : Pipeline
  links : Option PipelineLinks
  batchSize : Nat

namespace PassContext

/-- At least one pipeline is read at once. -/
def batchLimit (context : PassContext) : Nat :=
  max 1 context.batchSize

/-- Cancel one pipeline, as read in the current pass, and record it. -/
def cancelOne (context : PassContext) (pipeline : Pipeline) :
    Program (Except StoreError CancelOutcome) := do
  match ← Program.cancelRunning pipeline ⟨context.initiator.id, false⟩ with
  | .error error => return .error error
  | .ok .canceled =>
      Program.info
        s!"Auto-canceled pipeline {pipeline.id} (superseded by {context.initiator.id})"
      let now ← Program.readClock
      Program.emit {
        canceledPipelineId := pipeline.id
        canceledById := context.initiator.id
        canceledBySource := context.initiator.source
        canceledAt := now
        pipelineUrl := context.links.map (·.pipeline pipeline.id) }
      return .ok .canceled
  | .ok (.alreadyResolved status) =>
      Program.debug s!"Pipeline {pipeline.id} already {status.name}, nothing to cancel"
      return .ok (.alreadyResolved status)

/-- Cancel pipelines one after the other, up to the first error. -/
def cancelEach (context : PassContext) :
    List Pipeline → CancellationSummary →
      Program (Except StoreError Unit × CancellationSummary)
  | [], summary => return (.ok (), summary)
  | pipeline :: rest, summary => do
      match ← context.cancelOne pipeline with
      | .error error => return (.error error, summary)
      | .ok .canceled => context.cancelEach rest (summary.addCanceled pipeline.id)
      | .ok (.alreadyResolved _) =>
          context.cancelEach rest (summary.addAlreadyResolved pipeline.id)

end PassContext

/-- The query for the pipelines among `ids` that no build keeps from being
canceled. -/
def interruptibleQuery (ids : List Nat) : Query :=
  (Query.all.idIn ids).withOnlyInterruptibleBuilds

/-- The pipelines among `ids` that no build keeps from being canceled. -/
def filterInterruptible (ids : List Nat) : Program (Except StoreError (List Pipeline)) :=
  if ids.isEmpty then return .ok [] else Program.pipelines (interruptibleQuery ids)

namespace PassContext

/-- Cancel what may be canceled of one batch. -/
def cancelBatch (context : PassContext) (ids : List Nat) (summary : CancellationSummary) :
    Program (Except StoreError Unit × CancellationSummary) := do
  match ← filterInterruptible ids with
  | .error error => return (.error error, summary)
  | .ok eligible =>
      -- Whatever the second query leaves out counts as blocked.
      let blocked := ids.filter fun id => !eligible.any (·.id == id)
      context.cancelEach eligible (summary.addNotInterruptible blocked)

/-- The query of the batch that starts after an identifier. -/
def batchQuery (context : PassContext) (candidates : Query) (after : Option Nat) : Query :=
  let rest := match after with
    | some id => candidates.idAfter id
    | none => candidates
  rest.limitTo context.batchLimit

/-- Read and cancel at most `count` batches. -/
def runBatches (context : PassContext) (candidates : Query) :
    Nat → Option Nat → CancellationSummary →
      Program (Except StoreError Unit × CancellationSummary)
  | 0, _, summary => return (.ok (), summary)
  | count + 1, after, summary => do
      match ← Program.pipelines (context.batchQuery candidates after) with
      | .error error => return (.error error, summary)
      | .ok rows =>
          let ids := rows.map (·.id)
          match ids.getLast? with
          | none => return (.ok (), summary)
          | some last =>
              let summary := summary.recordBatch ids.length
              Program.debug
                s!"Processing batch {summary.batches} of {ids.length} candidate pipelines"
              let (result, summary) ← context.cancelBatch ids summary
              match result with
              | .error error => return (.error error, summary)
              | .ok () =>
                  -- A batch that is not full was the last one.
                  if ids.length < context.batchLimit then return (.ok (), summary)
                  else context.runBatches candidates count (some last) summary

/-- One pass over all candidates.  Identifiers grow from batch to batch, so their
bound also bounds the number of batches. -/
def runPass (context : PassContext) (candidates : Query) (summary : CancellationSummary) :
    Program (Except StoreError Unit × CancellationSummary) :=
  context.runBatches candidates (idBound + 1) none summary

end PassContext

end PipelineUpkeep

import PipelineUpkeep.Policy
import PipelineUpkeep.Program.Basic
/-!
# Selection of redundant pipelines

A new pipeline makes older pipelines of its ref redundant.  The flat strategy
looks at pipelines without a parent; the hierarchy strategy looks at the
pipelines created before the new one, and all of their descendants in the
project.  Both leave out the commit at the tip of the ref and what was created
before the lookback window.  The result is a query: nothing is loaded here but
the tip of the ref.
-/

namespace PipelineUpkeep

open Time

inductive Strategy where
  | flat
  | hierarchy
  deriving DecidableEq, Repr

namespace Strategy

def name : Strategy → String
  | flat => "flat"
  | hierarchy => "hierarchy"

def ofPolicy (policy : Policy) : Strategy :=
  if policy.useHierarchyStrategy then hierarchy else flat

end Strategy

/-- The pipelines of a pipeline's ref from the start of the window on, without the
commit at the tip of the ref. -/
def sameRefQuery (pipeline : Pipeline) (windowStart : Timestamp) (headSha : Option String) :
    Query :=
  ((Query.forRef pipeline.projectId pipeline.ref).createdAfter windowStart).whereNotSha headSha

/-- The candidates of a strategy. -/
def candidateQuery (strategy : Strategy) (pipeline : Pipeline) (windowStart : Timestamp)
    (headSha : Option String) : Query :=
  let sameRef := sameRefQuery pipeline windowStart headSha
  match strategy with
  | .flat =>
      sameRef.excluding pipeline.id |>.withSourceIn Source.ciAndParentSources |>.notChild
        |>.aliveOrScheduled
  | .hierarchy =>
      (Query.hierarchyOf
        ((sameRef.createdBefore pipeline.createdAt).withSourceIn Source.ciSources)).aliveOrScheduled

/-- The query for the pipelines that `pipeline` makes redundant.  A child pipeline,
and any pipeline of a project that does not cancel, makes none redundant. -/
def selectCandidates (pipeline : Pipeline) (policy : Policy) (lookback : Int) (now : Timestamp) :
    Program (Except StoreError Query) := do
  if pipeline.isChild then
    Program.debug s!"Pipeline {pipeline.id} is a child pipeline, nothing to select"
    return .ok Query.empty
  else if !policy.autoCancelPendingPipelines then
    Program.debug s!"Auto-cancel disabled for project {pipeline.projectId}, nothing to select"
    return .ok Query.empty
  else
    match ← Program.refHead pipeline.projectId pipeline.ref with
    | .error error => return .error error
    | .ok head =>
        match now.subSeconds? lookback with
        | none => Program.crash .windowStartOutOfRange
        | some windowStart =>
            return .ok (candidateQuery (Strategy.ofPolicy policy) pipeline windowStart
              (head.map (·.sha)))

end PipelineUpkeep

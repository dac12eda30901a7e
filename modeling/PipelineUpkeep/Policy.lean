import PipelineUpkeep.Pipeline.Rows
/-!
# Project policies and feature flags

A rule set answers three questions about a project: whether redundant pipelines
are canceled at all, whether they are found by walking parent and child links,
and whether the schedule worker advances the next run itself.  Feature flags are
the usual rule set: a flag holds for all projects or for those it lists.
-/

namespace PipelineUpkeep

/-- Answers about projects. -/
structure PolicyRules where
  autoCancel : Project → Bool
  hierarchy : Project → Bool
  scheduleWorker : Project → Bool

/-- The answers that decide one cancellation run. -/
structure Policy where
  autoCancelPendingPipelines : Bool
  useHierarchyStrategy : Bool
  deriving DecidableEq, Repr, Inhabited

def PolicyRules.resolve (rules : PolicyRules) (project : Project) : Policy :=
  ⟨rules.autoCancel project, rules.hierarchy project⟩

/-- Rules that give every project the same policy and enable the worker's own
check. -/
def PolicyRules.fixed (policy : Policy) : PolicyRules where
  autoCancel _ := policy.autoCancelPendingPipelines
  hierarchy _ := policy.useHierarchyStrategy
  scheduleWorker _ := true

/-- On for all projects, or for those listed. -/
structure FeatureFlag where
  enabled : Bool
  projects : List Nat
  deriving DecidableEq, Repr, Inhabited

namespace FeatureFlag

def on : FeatureFlag := ⟨true, []⟩

def off : FeatureFlag := ⟨false, []⟩

def enabledFor (flag : FeatureFlag) (projectId : Nat) : Bool :=
  flag.enabled || flag.projects.contains projectId

theorem enabledFor_iff (flag : FeatureFlag) (projectId : Nat) :
    flag.enabledFor projectId = true ↔ flag.enabled = true ∨ projectId ∈ flag.projects := by
  simp [enabledFor]

end FeatureFlag

/-- `hierarchyStrategy` selects candidates through parent and child links;
`scheduleWorker` lets the schedule worker check and advance the next run. -/
structure FeatureFlags where
  hierarchyStrategy : FeatureFlag
  scheduleWorker : FeatureFlag
  deriving DecidableEq, Repr

namespace FeatureFlags

/-- The flags of a configuration that names none. -/
def standard : FeatureFlags := ⟨FeatureFlag.off, FeatureFlag.on⟩

instance : Inhabited FeatureFlags := ⟨standard⟩

def rules (flags : FeatureFlags) : PolicyRules where
  autoCancel project := project.autoCancelPendingPipelines
  hierarchy project := flags.hierarchyStrategy.enabledFor project.id
  scheduleWorker project := flags.scheduleWorker.enabledFor project.id

end FeatureFlags

end PipelineUpkeep

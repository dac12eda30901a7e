/-!
# Pipeline sources

What caused a pipeline to be created.  *Dangling* sources do not belong to the
regular flow of a ref; the others are the CI sources.  A child pipeline has the
dangling source `parentPipeline`.
-/

namespace PipelineUpkeep

inductive Source where
  | unknown
  | push
  | web
  | trigger
  | schedule
  | api
  | external
  | pipeline
  | chat
  | webide
  | mergeRequestEvent
  | externalPullRequestEvent
  | parentPipeline
  | ondemandDastScan
  | ondemandDastValidation
  | securityOrchestrationPolicy
  | containerRegistryPush
  deriving DecidableEq, Repr, Inhabited

namespace Source

/-- Every source, in declaration order. -/
def all : List Source :=
  [unknown, push, web, trigger, schedule, api, external, pipeline, chat, webide,
    mergeRequestEvent, externalPullRequestEvent, parentPipeline, ondemandDastScan,
    ondemandDastValidation, securityOrchestrationPolicy, containerRegistryPush]

/-- The name used in files and messages. -/
def name : Source → String
  | unknown => "unknown"
  | push => "push"
  | web => "web"
  | trigger => "trigger"
  | schedule => "schedule"
  | api => "api"
  | external => "external"
  | pipeline => "pipeline"
  | chat => "chat"
  | webide => "webide"
  | mergeRequestEvent => "merge_request_event"
  | externalPullRequestEvent => "external_pull_request_event"
  | parentPipeline => "parent_pipeline"
  | ondemandDastScan => "ondemand_dast_scan"
  | ondemandDastValidation => "ondemand_dast_validation"
  | securityOrchestrationPolicy => "security_orchestration_policy"
  | containerRegistryPush => "container_registry_push"

def ofName? (text : String) : Option Source :=
  all.find? fun source => source.name == text

/-- The message for a text that names no source. -/
def unknownNameMessage (text : String) : String :=
  "unknown pipeline source: " ++ text

def isDangling : Source → Bool
  | webide | parentPipeline | ondemandDastScan | ondemandDastValidation
  | securityOrchestrationPolicy | containerRegistryPush => true
  | _ => false

def isCi (source : Source) : Bool :=
  !source.isDangling

def ciSources : List Source :=
  all.filter isCi

def ciAndParentSources : List Source :=
  all.filter fun source => source.isCi || source == parentPipeline

theorem mem_all (source : Source) : source ∈ all := by
  cases source <;> decide

theorem ofName?_name (source : Source) : ofName? source.name = some source := by
  cases source <;> decide

theorem name_of_ofName?_eq_some {text : String} {source : Source}
    (h : ofName? text = some source) : source.name = text := by
  simpa using List.find?_some h

theorem mem_ciSources_iff (source : Source) :
    source ∈ ciSources ↔ source.isDangling = false := by
  simp [ciSources, isCi, mem_all]

theorem mem_ciAndParentSources_iff (source : Source) :
    source ∈ ciAndParentSources ↔ source.isDangling = false ∨ source = parentPipeline := by
  simp [ciAndParentSources, isCi, mem_all]

end Source

end PipelineUpkeep

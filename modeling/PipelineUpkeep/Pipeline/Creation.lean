import PipelineUpkeep.Cancellation.Run
import PipelineUpkeep.Pipeline.SkipMarker
/-!
# Creation of pipelines

A pipeline is created for the tip of a ref, with one build for each job of its
project.  A request is turned down when the ref is unknown, when the project's CI
configuration cannot be processed, or when the commit asks to skip CI, in this
order; a turned down request may still store a row that tells of it.  Once a
pipeline is stored, the pipelines that it makes redundant are canceled, and a
failure of that does not undo the creation.
-/

namespace PipelineUpkeep

open Data

namespace CreationRequest

/-- The request of a schedule that fires. -/
def ofSchedule (schedule : Schedule) (user : User) : CreationRequest where
  projectId := schedule.projectId
  ref := schedule.ref
  source := .schedule
  userId := user.id
  ignoreSkipCi := true
  saveOnErrors := false
  scheduleId := some schedule.id

/-- The row for a request at the tip of its ref. -/
def newPipeline (request : CreationRequest) (head : RefHead) (status : Status)
    (createdAt : Time.Timestamp) (builds : List NewBuild) : NewPipeline where
  projectId := request.projectId
  ref := request.ref
  sha := head.sha
  source := request.source
  status := status
  createdAt := createdAt
  parentId := none
  builds := builds

end CreationRequest

/-- The builds of a new pipeline. -/
def Project.newBuilds (project : Project) : List NewBuild :=
  project.ciJobs.map fun job => ⟨job.name, .created, job.interruptible⟩

/-- The answer to a request: a message if it was turned down, the row that was
stored, and the report of the cancellation that followed. -/
structure CreationResponse where
  message : Option String
  pipeline : Option Pipeline
  cancellation : Option CancellationReport

namespace CreationResponse

def isSuccess (response : CreationResponse) : Bool := response.message.isNone

def isPersisted (response : CreationResponse) : Bool := response.pipeline.isSome

def encode (response : CreationResponse) : Value :=
  .table ((match response.message with
      | some message => [("message", .text message)]
      | none => []) ++
    [("pipeline", .ofOption Pipeline.encode response.pipeline)] ++
    match response.cancellation with
    | some report => [("cancellation", report.encode)]
    | none => [])

end CreationResponse

/-- Turn a request down. -/
def rejectCreation (request : CreationRequest) (project : Project) (head : RefHead)
    (status : Status) (message : String) : Program (Except CreationError CreationResponse) := do
  let refuse (pipeline : Option Pipeline) : Program (Except CreationError CreationResponse) := do
    Program.warn
      s!"Pipeline for {request.ref}@{head.sha} in {project.path} not created: {message}"
    return .ok ⟨some message, pipeline, none⟩
  if request.saveOnErrors then
    let now ← Program.readClock
    match ← Program.createPipeline (request.newPipeline head status now []) with
    | .error error => return .error (.store error)
    | .ok pipeline => refuse (some pipeline)
  else refuse none

/-- Cancel what a new pipeline makes redundant; a failure is logged and gives no
report. -/
def cancelAfterCreation (rules : PolicyRules) (settings : CancellationSettings)
    (pipeline : Pipeline) : Program (Option CancellationReport) := do
  match ← cancelRedundant rules settings pipeline with
  | .ok report => return some report
  | .error error =>
      Program.warn (s!"Failed to cancel redundant pipelines for pipeline {pipeline.id}: " ++
        error.message)
      return none

/-- Create a pipeline. -/
def createForRequest (rules : PolicyRules) (settings : CancellationSettings)
    (request : CreationRequest) : Program (Except CreationError CreationResponse) := do
  match ← Program.project .engine request.projectId with
  | .error error => return .error (.store error)
  | .ok none => return .error (.projectNotFound request.projectId)
  | .ok (some project) =>
      match ← Program.refHead project.id request.ref with
      | .error error => return .error (.store error)
      | .ok none => return .ok ⟨some "Reference not found", none, none⟩
      | .ok (some head) =>
          match project.ciConfigError with
          | some reason => rejectCreation request project head .failed reason
          | none =>
              if !request.ignoreSkipCi && head.requestsCiSkip then
                rejectCreation request project head .skipped "Pipeline skipped"
              else
                let now ← Program.readClock
                match ← Program.createPipeline
                    (request.newPipeline head .created now project.newBuilds) with
                | .error error => return .error (.store error)
                | .ok pipeline =>
                    Program.info (s!"Created {pipeline.source.name} pipeline {pipeline.id} for " ++
                      s!"{pipeline.ref}@{pipeline.sha} in {project.path}")
                    -- The pipeline stands, whatever becomes of the cancellation.
                    let report ← cancelAfterCreation rules settings pipeline
                    return .ok ⟨none, some pipeline, report⟩

end PipelineUpkeep

import PipelineUpkeep.Data.Json.Printer
import PipelineUpkeep.Pipeline.Creation
import PipelineUpkeep.Time.Rfc3339
/-!
# Deliveries of schedules

A delivery fires one schedule on behalf of a user.  Deliveries may be repeated:
unless its caller has done so, a delivery advances the next run of the schedule
by compare-and-set before it asks for a pipeline, and only the delivery that wins
goes on.  A delivery always has an outcome; unexpected errors are counted and
reported.
-/

namespace PipelineUpkeep

open Data Time

inductive DeliveryOutcome where
  /-- The schedule, its project or the user is gone. -/
  | skipped
  | notDue (nextRunAt : Timestamp)
  /-- Another delivery has advanced the next run. -/
  | alreadyClaimed
  | created (pipelineId : Nat)
  | creationFailed (message : String)
  | errored (message : String)
  deriving DecidableEq, Repr

namespace DeliveryOutcome

def entries : DeliveryOutcome → List (String × Value)
  | skipped => [("outcome", .text "skipped")]
  | notDue nextRunAt =>
      [("outcome", .text "not_due"), ("next_run_at", encodeTimestamp nextRunAt)]
  | alreadyClaimed => [("outcome", .text "already_claimed")]
  | created pipelineId => [("outcome", .text "created"), ("pipeline_id", .nat pipelineId)]
  | creationFailed message =>
      [("outcome", .text "creation_failed"), ("message", .text message)]
  | errored message => [("outcome", .text "errored"), ("message", .text message)]

end DeliveryOutcome

/-- What a delivery works with. -/
structure DeliveryContext where
  rules : PolicyRules
  settings : CancellationSettings

/-- Count and report an unexpected error. -/
def reportFailure (scheduleId : Nat) (message : String) : Program DeliveryOutcome := do
  Program.ask .countFailure
  Program.writeLog .error
    (s!"Failed to create a scheduled pipeline. schedule_id: {scheduleId} message: " ++ message)
  Program.ask (.track message scheduleId)
  return .errored message

/-- The schedule, its project and the user, if all exist. -/
def loadDelivery (scheduleId userId : Nat) :
    Program (Except StoreError (Option (Schedule × Project × User))) := do
  match ← Program.schedule scheduleId with
  | .error error => return .error error
  | .ok none => return .ok none
  | .ok (some schedule) =>
      match ← Program.project .worker schedule.projectId with
      | .error error => return .error error
      | .ok none => return .ok none
      | .ok (some project) =>
          match ← Program.user userId with
          | .error error => return .error error
          | .ok none => return .ok none
          | .ok (some user) => return .ok (some (schedule, project, user))

/-- Advance the next run of a schedule past `now`; false if another delivery did. -/
def claimSchedule (schedule : Schedule) (now : Timestamp) : Program (Except UpkeepError Bool) := do
  match schedule.nextRunAfter now with
  | .error error => return .error error
  | .ok next =>
      let result ← Program.advanceNextRun schedule.id schedule.nextRunAt next
      match result with
      | .error error => return .error (.store error)
      | .ok won => return .ok won

/-- The line that tells of a turned down request. -/
def creationFailureMessage (scheduleId : Nat) (message : String) : String :=
  "Scheduled pipeline not created: " ++
    Json.compact (.table [("schedule_id", .text (toString scheduleId)),
      ("pipeline_creation_error", .text message)])

/-- Ask for the pipeline of a schedule. -/
def fireSchedule (context : DeliveryContext) (schedule : Schedule) (user : User) :
    Program DeliveryOutcome := do
  let request := CreationRequest.ofSchedule schedule user
  Program.ask (.creation request)
  match ← createForRequest context.rules context.settings request with
  | .error error => reportFailure schedule.id error.message
  | .ok response =>
      match response.pipeline with
      | some pipeline =>
          let result ← Program.recordLastPipeline schedule.id pipeline.id
          match result with
          | .error error =>
              Program.warn
                (s!"Failed to record pipeline {pipeline.id} on schedule {schedule.id}: " ++
                  error.message)
              return .created pipeline.id
          | .ok () => return .created pipeline.id
      | none =>
          let message := response.message.getD ""
          Program.info (creationFailureMessage schedule.id message)
          return .creationFailed message

/-- Deliver a schedule.  `nextRunScheduled` says that the caller has advanced the
next run. -/
def deliver (context : DeliveryContext) (scheduleId userId : Nat) (nextRunScheduled : Bool) :
    Program DeliveryOutcome := do
  match ← loadDelivery scheduleId userId with
  | .error error => reportFailure scheduleId (UpkeepError.store error).message
  | .ok none =>
      Program.debug s!"Schedule {scheduleId} or user {userId} not found, skipping"
      return .skipped
  | .ok (some (schedule, project, user)) =>
      -- Otherwise nothing is claimed here, and the schedule need not even be due.
      if context.rules.scheduleWorker project && !nextRunScheduled then
        let now ← Program.readClock
        if now < schedule.nextRunAt then return .notDue schedule.nextRunAt
        else
          match ← claimSchedule schedule now with
          | .error error => reportFailure schedule.id error.message
          | .ok false =>
              Program.info (s!"Schedule {schedule.id} was already fired for " ++
                s!"{schedule.nextRunAt.toSpaced}, skipping")
              return .alreadyClaimed
          | .ok true => fireSchedule context schedule user
      else fireSchedule context schedule user

end PipelineUpkeep

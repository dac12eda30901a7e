import PipelineUpkeep.Error
import PipelineUpkeep.Pipeline.Rows
import PipelineUpkeep.Schedule.CronSearch
import PipelineUpkeep.Schedule.Weekdays
/-!
# Pipeline schedules

A schedule fires a pipeline of a ref on behalf of its owner.  Its cron expression
has five fields in the standard numbering of weekdays, or six or seven fields in
the syntax of `Cron.Fields`.  A five-field expression is read as six fields: the
second zero, its first four fields unchanged, and its weekdays renumbered.
-/

namespace PipelineUpkeep

open Time Text

/-- A pipeline trigger owned by a user, evaluated in UTC. -/
structure Schedule where
  id : Nat
  projectId : Nat
  ref : String
  cron : String
  ownerId : Nat
  active : Bool
  nextRunAt : Timestamp
  lastPipelineId : Option Nat
  description : String
  deriving DecidableEq, Repr, Inhabited

namespace Cron

/-- The text that is read for an expression, or why there is none. -/
def normalize (expression : List Char) : Except String (List Char) :=
  match words expression with
  | [minute, hour, dayOfMonth, month, weekdays] =>
      match WeekdayField.ofChars weekdays with
      | .ok field =>
          .ok ([' '].intercalate [['0'], minute, hour, dayOfMonth, month, field.toChars])
      | .error error => .error error.message
  | [_, _, _, _, _, _] | [_, _, _, _, _, _, _] => .ok expression
  | fields => .error s!"expected 5 fields, got {fields.length}"

/-- Read an expression of five, six or seven fields. -/
def Fields.ofExpression (expression : String) : Except UpkeepError Fields :=
  let trimmed := trim expression.toList
  let invalid (reason : String) : UpkeepError :=
    .invalidCron (String.ofList trimmed) reason
  match normalize trimmed with
  | .error reason => .error (invalid reason)
  | .ok text =>
      match Fields.ofChars? text with
      | some fields => .ok fields
      | none => .error (invalid "Invalid expression: Invalid cron expression.")

end Cron

namespace Schedule

/-- Active, and its next run is not in the future. -/
def isDue (schedule : Schedule) (now : Timestamp) : Bool :=
  schedule.active && decide (schedule.nextRunAt ≤ now)

/-- The first instant of the schedule's expression after `now`. -/
def nextRunAfter (schedule : Schedule) (now : Timestamp) : Except UpkeepError Timestamp := do
  let fields ← Cron.Fields.ofExpression schedule.cron
  match fields.nextAfter? now with
  | some next => .ok next
  | none => .error (.noUpcomingRun schedule.cron)

end Schedule

end PipelineUpkeep

import PipelineUpkeep.Schedule.Delivery
/-!
# Sweeps over due schedules

A sweep claims every due schedule by advancing its next run, one after the other,
and then delivers the claimed ones side by side.  A schedule that cannot be
claimed is left to a later sweep and does not hold up the others.
-/

namespace PipelineUpkeep

open Data Time

/-- The outcome of one schedule of a sweep. -/
structure SweepEntry where
  scheduleId : Nat
  outcome : DeliveryOutcome
  deriving DecidableEq, Repr

def SweepEntry.encode (entry : SweepEntry) : Value :=
  .table (("schedule_id", .nat entry.scheduleId) :: entry.outcome.entries)

/-- Claim one due schedule; answers whether that succeeded. -/
def claimDue (now : Timestamp) (schedule : Schedule) : Program Bool := do
  match schedule.nextRunAfter now with
  | .error error =>
      Program.warn (s!"Schedule {schedule.id} cannot be advanced: " ++ error.message)
      return false
  | .ok next =>
      let result ← Program.advanceNextRun schedule.id schedule.nextRunAt next
      match result with
      | .ok true => return true
      | .ok false =>
          Program.debug s!"Schedule {schedule.id} was claimed by another sweep"
          return false
      | .error error =>
          Program.warn (s!"Failed to claim schedule {schedule.id}: " ++ error.message)
          return false

/-- Claim schedules in order; gives those that were claimed. -/
def claimEach (now : Timestamp) : List Schedule → Program (List Schedule)
  | [] => return []
  | schedule :: rest => do
      let won ← claimDue now schedule
      let others ← claimEach now rest
      return if won then schedule :: others else others

/-- The first part of a sweep: claim all due schedules. -/
def claimAllDue (now : Timestamp) : Program (Except UpkeepError (List Schedule)) := do
  match ← Program.dueSchedules now with
  | .error error => return .error (.store error)
  | .ok due => return .ok (← claimEach now due)

/-- The second part of a sweep: the deliveries that run side by side. -/
def sweepDeliveries (context : DeliveryContext) (claimed : List Schedule) :
    List (Program SweepEntry) :=
  claimed.map fun schedule => do
    let outcome ← deliver context schedule.id schedule.ownerId true
    return ⟨schedule.id, outcome⟩

/-- The last part of a sweep. -/
def closeSweep (entries : List SweepEntry) : Program (List SweepEntry) := do
  if !entries.isEmpty then
    Program.info s!"Fired {entries.length} due pipeline schedule(s)"
  return entries

end PipelineUpkeep

import PipelineUpkeep.Program.Request
/-!
# Disturbed stores

A store as it behaves while others use it and parts of it fail.  Calls of a kind
can fail with a given error, another process can write a pipeline right before it
is canceled, and schedules can be read from before later writes.  A script says
what happens; parts of it may be used up.
-/

namespace PipelineUpkeep

/-- The kinds of store calls. -/
inductive StoreCall.Kind where
  | project
  | pipeline
  | pipelines
  | buildsFor
  | refHead
  | createPipeline
  | cancelRunning
  | setRefHead
  | schedule
  | user
  | dueSchedules
  | advanceNextRun
  | recordLastPipeline
  deriving DecidableEq, Repr

namespace StoreCall

def kind : StoreCall → Kind
  | project .. => .project
  | pipeline .. => .pipeline
  | pipelines .. => .pipelines
  | buildsFor .. => .buildsFor
  | refHead .. => .refHead
  | createPipeline .. => .createPipeline
  | cancelRunning .. => .cancelRunning
  | setRefHead .. => .setRefHead
  | schedule .. => .schedule
  | user .. => .user
  | dueSchedules .. => .dueSchedules
  | advanceNextRun .. => .advanceNextRun
  | recordLastPipeline .. => .recordLastPipeline

/-- The identifier that a call names first, if it names one. -/
def subject? : StoreCall → Option Nat
  | project id | pipeline id | buildsFor id | refHead id _ | schedule id | user id
  | advanceNextRun id _ _ | recordLastPipeline id _ => some id
  | cancelRunning row _ => some row.id
  | pipelines _ | createPipeline _ | setRefHead _ | dueSchedules _ => none

end StoreCall

/-- Calls that fail. -/
structure ScriptedFailure where
  kind : StoreCall.Kind
  /-- Only calls from this part of the program. -/
  access : Option Access
  /-- Only calls that name this identifier first. -/
  subject : Option Nat
  /-- How often; always if absent. -/
  times : Option Nat
  error : StoreError
  deriving Repr

/-- The script entry is about calls like this one. -/
def ScriptedFailure.applies (access : Access) (call : StoreCall) (failure : ScriptedFailure) :
    Bool :=
  failure.kind == call.kind && failure.access.all (· == access) &&
    (failure.subject.isNone || failure.subject == call.subject?)

/-- Another process writes a pipeline right before it is canceled. -/
structure ScriptedWrite where
  pipelineId : Nat
  times : Option Nat
  /-- The status that it writes; the same status if absent. -/
  finishWith : Option Status
  deriving Repr

structure Disturbance where
  failures : List ScriptedFailure
  writes : List ScriptedWrite
  /-- Read in place of the schedule with its identifier. -/
  staleSchedule : Option Schedule
  /-- Read in place of the due schedules. -/
  staleDue : Option (List Schedule)
  deriving Inhabited

namespace Disturbance

def none : Disturbance := ⟨[], [], .none, .none⟩

/-- One use less. -/
def useUp (times : Option Nat) : Option Nat :=
  times.map (· - 1)

/-- Find the first entry that applies and is not used up, and use it once. -/
def takeFirst {α : Type} (applies : α → Bool) (times : α → Option Nat)
    (setTimes : α → Option Nat → α) : List α → Option (α × List α)
  | [] => .none
  | entry :: rest =>
      if applies entry && times entry != some 0 then
        some (entry, setTimes entry (useUp (times entry)) :: rest)
      else
        (takeFirst applies times setTimes rest).map fun (found, rest) => (found, entry :: rest)

/-- The error of a call, if the script lets it fail. -/
def takeFailure (disturbance : Disturbance) (access : Access) (call : StoreCall) :
    Option (StoreError × Disturbance) :=
  (takeFirst (ScriptedFailure.applies access call) (·.times)
    (fun entry times => { entry with times }) disturbance.failures).map
    fun (failure, failures) => (failure.error, { disturbance with failures })

/-- The write that precedes a cancellation, if the script has one. -/
def takeWrite (disturbance : Disturbance) (pipelineId : Nat) :
    Option (ScriptedWrite × Disturbance) :=
  (takeFirst (·.pipelineId == pipelineId) (·.times) (fun entry times => { entry with times })
    disturbance.writes).map fun (write, writes) => (write, { disturbance with writes })

/-- Perform a call that does not fail by the script. -/
def performUnfailing (disturbance : Disturbance) :
    (call : StoreCall) → Store → Except StoreError call.Answer × Disturbance × Store
  | .cancelRunning pipeline request, store =>
      -- The caller still holds the row as it was before this write.
      let (disturbance, store) := match disturbance.takeWrite pipeline.id with
        | some (write, disturbance) =>
            (disturbance, store.touchPipeline write.pipelineId write.finishWith)
        | .none => (disturbance, store)
      let (result, store) := store.cancelRunning pipeline request
      (result, disturbance, store)
  | .schedule id, store =>
      let found := match disturbance.staleSchedule with
        | some stale => if stale.id = id then some stale else store.schedules.find? id
        | .none => store.schedules.find? id
      (.ok found, disturbance, store)
  | .dueSchedules now, store =>
      (.ok (disturbance.staleDue.getD (store.dueSchedules now)), disturbance, store)
  | call, store =>
      let (result, store) := call.perform store
      (result, disturbance, store)

/-- Perform a call of a disturbed store. -/
def perform (disturbance : Disturbance) (access : Access) (call : StoreCall) (store : Store) :
    Except StoreError call.Answer × Disturbance × Store :=
  match disturbance.takeFailure access call with
  | some (error, disturbance) => (.error error, disturbance, store)
  | .none => disturbance.performUnfailing call store

theorem perform_none (access : Access) (call : StoreCall) (store : Store) :
    perform none access call store =
      ((call.perform store).1, none, (call.perform store).2) := by
  cases call <;> rfl

end Disturbance

end PipelineUpkeep

import PipelineUpkeep.Data.Json.Printer
import PipelineUpkeep.Program.Basic
import PipelineUpkeep.Store.Disturbance
/-!
# Worlds

The surroundings in which a program runs: a store, a clock that stands still, a
log, an audit trail, and a count of failures.  A program runs up to its end or up
to its next pause; a fault leaves the world as it is at that moment.
-/

namespace PipelineUpkeep

open Time

/-- What becomes of audit records. -/
inductive AuditTrail where
  | keep
  /-- Each record becomes a line of the log. -/
  | toLog
  /-- No record can be written. -/
  | offline
  deriving DecidableEq, Repr

structure World where
  store : Store
  disturbance : Disturbance
  clock : Timestamp
  trail : AuditTrail
  /-- The newest line comes first. -/
  log : List LogEntry
  /-- The newest record comes first. -/
  audit : List AuditRecord
  failures : Nat

namespace World

/-- A world in which nothing has happened. -/
def start (store : Store) (clock : Timestamp) : World :=
  ⟨store, .none, clock, .keep, [], [], 0⟩

def addLog (world : World) (entry : LogEntry) : World :=
  { world with log := entry :: world.log }

/-- The line that a store writes about a pipeline it has created. -/
def createdEntry (pipeline : Pipeline) : LogEntry :=
  ⟨.debug, false, s!"Created pipeline {pipeline.id} for {pipeline.ref}@{pipeline.sha}"⟩

/-- The reason that an offline trail gives. -/
def offlineReason : String :=
  "Failed to encode audit record: expected value at line 1 column 1"

/-- The line of the log for a call that was performed. -/
def logCall (world : World) :
    (call : StoreCall) → Except StoreError call.Answer → World
  | .createPipeline _, .ok pipeline => world.addLog (createdEntry pipeline)
  | _, _ => world

/-- Perform a store call. -/
def callStore (world : World) (access : Access) (call : StoreCall) :
    Except StoreError call.Answer × World :=
  let (result, disturbance, store) := world.disturbance.perform access call world.store
  (result, { world with disturbance, store }.logCall call result)

/-- Answer one request. -/
def answer (world : World) : (request : Request) → request.Answer × World
  | .store access call => world.callStore access call
  | .clock => (world.clock, world)
  | .log entry => ((), world.addLog entry)
  | .audit entry =>
      match world.trail with
      | .keep => (none, { world with audit := entry :: world.audit })
      | .toLog => (none, world.addLog ⟨.info, true, Data.Json.compact entry.encode⟩)
      | .offline => (some offlineReason, world)
  | .sleep _ => ((), world)
  | .countFailure => ((), { world with failures := world.failures + 1 })
  | .track message scheduleId =>
      ((), world.addLog
        ⟨.error, false, s!"Tracked error: {message} (schedule_id={scheduleId})"⟩)
  | .creation _ => ((), world)

end World

namespace Program

variable {α : Type}

/-- Run to the end; pauses take no time. -/
def run : Program α → World → Except Fault α × World
  | done value, world => (.ok value, world)
  | crash fault, world => (.error fault, world)
  | request asked resume, world =>
      let (answer, world) := world.answer asked
      (resume answer).run world

/-- How far a program has come. -/
inductive Progress (α : Type) where
  | finished (value : α)
  | crashed (fault : Fault)
  /-- Asleep for a while, with the rest of the program. -/
  | asleep (span : Span) (rest : Program α)

/-- Run up to the end or the next pause.  A pause of no length is none. -/
def runToPause : Program α → World → Progress α × World
  | done value, world => (.finished value, world)
  | crash fault, world => (.crashed fault, world)
  | request (.sleep span) resume, world =>
      if span.nanoseconds = 0 then (resume ()).runToPause world
      else (.asleep span (resume ()), world)
  | request asked resume, world =>
      let (answer, world) := world.answer asked
      (resume answer).runToPause world

@[simp]
theorem run_pure (value : α) (world : World) :
    run (pure value) world = (.ok value, world) := rfl

theorem run_bind {β : Type} (program : Program α) (next : α → Program β) (world : World) :
    run (program >>= next) world =
      match run program world with
      | (.ok value, world) => run (next value) world
      | (.error fault, world) => (.error fault, world) := by
  induction program generalizing world with
  | done value => rfl
  | crash fault => rfl
  | request asked resume ih =>
      rw [request_bind]
      exact ih _ _

end Program

end PipelineUpkeep

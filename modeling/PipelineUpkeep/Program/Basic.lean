import PipelineUpkeep.Program.Request
/-!
# Programs

A program is a tree: it is done with a value, ends in a fault, or makes one
request and goes on with its answer.  Nothing happens between two requests that
the surroundings could see, so a run is determined by the answers it gets, and
several programs can be interleaved request by request.
-/

namespace PipelineUpkeep

open Time

inductive Program (α : Type) where
  | done (value : α)
  | crash (fault : Fault)
  | request (request : Request) (resume : request.Answer → Program α)

namespace Program

variable {α β γ : Type}

/-- Go on with `next` once the program is done. -/
def bind : Program α → (α → Program β) → Program β
  | done value, next => next value
  | crash fault, _ => crash fault
  | request asked resume, next => request asked fun answer => (resume answer).bind next

instance : Monad Program where
  pure := done
  bind := bind

@[simp]
theorem pure_bind' (value : α) (next : α → Program β) :
    (pure value : Program α) >>= next = next value := rfl

@[simp]
theorem done_bind (value : α) (next : α → Program β) : done value >>= next = next value := rfl

@[simp]
theorem crash_bind (fault : Fault) (next : α → Program β) :
    (crash fault : Program α) >>= next = crash fault := rfl

@[simp]
theorem request_bind (asked : Request) (resume : asked.Answer → Program α)
    (next : α → Program β) :
    request asked resume >>= next = request asked fun answer => resume answer >>= next := rfl

@[simp]
theorem bind_done (program : Program α) : program >>= done = program := by
  induction program with
  | done value => rfl
  | crash fault => rfl
  | request asked resume ih =>
      rw [request_bind]
      congr 1
      funext answer
      exact ih answer

theorem bind_assoc' (program : Program α) (first : α → Program β) (second : β → Program γ) :
    (program >>= first) >>= second = program >>= fun value => first value >>= second := by
  induction program with
  | done value => rfl
  | crash fault => rfl
  | request asked resume ih =>
      simp only [request_bind]
      congr 1
      funext answer
      exact ih answer

/-- Make one request. -/
def ask (asked : Request) : Program asked.Answer :=
  request asked done

/-- Make one store call. -/
def callStore (access : Access) (call : StoreCall) : Program (Except StoreError call.Answer) :=
  ask (.store access call)

def readClock : Program Timestamp :=
  ask .clock

def writeLog (level : LogLevel) (message : String) : Program Unit :=
  ask (.log ⟨level, false, message⟩)

def debug (message : String) : Program Unit :=
  writeLog .debug message

def info (message : String) : Program Unit :=
  writeLog .info message

def warn (message : String) : Program Unit :=
  writeLog .warn message

/-- Hand a record to the audit trail; a trail that fails only costs a line in the
log. -/
def emit (entry : AuditRecord) : Program Unit := do
  let failure : Option String ← ask (.audit entry)
  match failure with
  | some reason =>
      debug s!"Dropped audit record for pipeline {entry.canceledPipelineId}: {reason}"
  | none => pure ()

def sleep (span : Span) : Program Unit :=
  ask (.sleep span)

def project (access : Access) (id : Nat) : Program (Except StoreError (Option Project)) :=
  callStore access (.project id)

def pipelines (query : Query) : Program (Except StoreError (List Pipeline)) :=
  callStore .engine (.pipelines query)

def refHead (projectId : Nat) (ref : String) : Program (Except StoreError (Option RefHead)) :=
  callStore .engine (.refHead projectId ref)

def createPipeline (new : NewPipeline) : Program (Except StoreError Pipeline) :=
  callStore .engine (.createPipeline new)

def cancelRunning (pipeline : Pipeline) (request : CancelRequest) :
    Program (Except StoreError CancelOutcome) :=
  callStore .engine (.cancelRunning pipeline request)

def schedule (id : Nat) : Program (Except StoreError (Option Schedule)) :=
  callStore .schedules (.schedule id)

def user (id : Nat) : Program (Except StoreError (Option User)) :=
  callStore .schedules (.user id)

def dueSchedules (now : Timestamp) : Program (Except StoreError (List Schedule)) :=
  callStore .schedules (.dueSchedules now)

def advanceNextRun (id : Nat) (observed next : Timestamp) : Program (Except StoreError Bool) :=
  callStore .schedules (.advanceNextRun id observed next)

def recordLastPipeline (id pipelineId : Nat) : Program (Except StoreError Unit) :=
  callStore .schedules (.recordLastPipeline id pipelineId)

end Program

end PipelineUpkeep

import PipelineUpkeep.Cancellation.Audit
import PipelineUpkeep.Store.Call
import PipelineUpkeep.Time.Span
/-!
# Requests of programs

What a program may ask of its surroundings: one store call, the time, a line in
the log, a record in the audit trail, a pause, and the report of an unexpected
error.  That a schedule asks for a pipeline is a request too: its answer is
nothing, and the creation follows as a part of the same program.  Store calls
come from three places: the engine that creates and cancels pipelines, the
schedule worker's look at projects, and all dealings with schedules and users.
-/

namespace PipelineUpkeep

open Time

/-- The part of the program that calls a store. -/
inductive Access where
  | engine
  | worker
  | schedules
  deriving DecidableEq, Repr

inductive LogLevel where
  | debug
  | info
  | warn
  | error
  deriving DecidableEq, Repr

def LogLevel.name : LogLevel → String
  | debug => "DEBUG"
  | info => "INFO"
  | warn => "WARN"
  | error => "ERROR"

/-- A line of the log; audit lines have a target of their own. -/
structure LogEntry where
  level : LogLevel
  isAudit : Bool
  message : String
  deriving DecidableEq, Repr

/-- For instance `INFO Fired 1 due pipeline schedule(s)`. -/
def LogEntry.toText (entry : LogEntry) : String :=
  entry.level.name ++ (if entry.isAudit then "[audit] " else " ") ++ entry.message

/-- What is asked of the creation of pipelines: one for a ref of a project, on whose
behalf, and what becomes of a request that is turned down. -/
structure CreationRequest where
  projectId : Nat
  ref : String
  source : Source
  userId : Nat
  /-- Create the pipeline although the commit asks to skip CI. -/
  ignoreSkipCi : Bool
  /-- Store a row for a request that is turned down. -/
  saveOnErrors : Bool
  /-- The schedule that fires, if one does. -/
  scheduleId : Option Nat
  deriving DecidableEq, Repr

inductive Request where
  | store (access : Access) (call : StoreCall)
  | clock
  | log (entry : LogEntry)
  /-- Hand a record to the audit trail; answers why that failed, if it did. -/
  | audit (entry : AuditRecord)
  | sleep (span : Span)
  /-- Count a failed creation. -/
  | countFailure
  /-- Report an unexpected error of a schedule. -/
  | track (message : String) (scheduleId : Nat)
  /-- Turn to the creation of pipelines; its calls follow. -/
  | creation (request : CreationRequest)

/-- What a request is answered with. -/
def Request.Answer : Request → Type
  | store _ call => Except StoreError call.Answer
  | clock => Timestamp
  | log _ => Unit
  | audit _ => Option String
  | sleep _ => Unit
  | countFailure => Unit
  | track _ _ => Unit
  | creation _ => Unit

end PipelineUpkeep

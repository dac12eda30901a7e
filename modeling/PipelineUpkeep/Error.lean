import PipelineUpkeep.Store.Error
/-!
# Errors

What ends an operation, as causes.  `message` gives the text of each.  A *fault*
is not an error value: it ends the whole run at once.
-/

namespace PipelineUpkeep

inductive UpkeepError where
  /-- The server refused a request. -/
  | api (status : Nat) (body : String)
  /-- The server still failed after the last retry. -/
  | apiAfterRetries (status retries : Nat)
  /-- A setting has no usable value. -/
  | config (reason : String)
  | invalidCron (expression reason : String)
  | noUpcomingRun (expression : String)
  | lockRetriesExhausted (name : String) (attempts : Nat)
  | store (error : StoreError)
  /-- No answer came from the server, or none that can be read. -/
  | network (reason : String)
  deriving DecidableEq, Repr

namespace UpkeepError

/-- The name of the kind of error. -/
def kind : UpkeepError → String
  | api .. => "ApiError"
  | apiAfterRetries .. => "ApiErrorAfterRetries"
  | config .. => "Config"
  | invalidCron .. => "InvalidCron"
  | noUpcomingRun .. => "NoUpcomingRun"
  | lockRetriesExhausted .. => "LockRetriesExhausted"
  | store .. => "Store"
  | network .. => "Network"

def message : UpkeepError → String
  | api status body => s!"API request failed with status {status}: {body}"
  | apiAfterRetries status retries =>
      s!"API request failed with status {status} after {retries} retries"
  | config reason => "Invalid configuration: " ++ reason
  | invalidCron expression reason =>
      "Invalid cron expression '" ++ expression ++ "': " ++ reason
  | noUpcomingRun expression => "Cron expression '" ++ expression ++ "' has no upcoming run"
  | lockRetriesExhausted name attempts =>
      "Optimistic lock '" ++ name ++ "' gave up after " ++ toString attempts ++ " attempts"
  | store error => "Store error: " ++ error.message
  | network reason => "Network error: " ++ reason

end UpkeepError

/-- What prevents the creation of a pipeline altogether. -/
inductive CreationError where
  | projectNotFound (projectId : Nat)
  | store (error : StoreError)
  deriving DecidableEq, Repr

namespace CreationError

def kind : CreationError → String
  | projectNotFound .. => "ProjectNotFound"
  | store .. => "Store"

def message : CreationError → String
  | projectNotFound projectId => s!"Project {projectId} not found"
  | store error => error.message

end CreationError

/-- What ends a whole run at once. -/
inductive Fault where
  /-- The start of the lookback window lies before or after all timestamps. -/
  | windowStartOutOfRange
  deriving DecidableEq, Repr

def Fault.message : Fault → String
  | windowStartOutOfRange => "`DateTime - TimeDelta` overflowed"

end PipelineUpkeep

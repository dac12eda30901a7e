import PipelineUpkeep.Pipeline.Source
/-!
# Commands

What the program can be told to do, and with which files and in which form it
answers.
-/

namespace PipelineUpkeep

inductive Command where
  /-- Cancel what a stored pipeline makes redundant. -/
  | cancelRedundant (pipelineId : Nat)
  | createPipeline (projectId : Nat) (ref : String) (source : Source) (userId : Nat)
  /-- Deliver one schedule. -/
  | runSchedule (scheduleId userId : Nat) (nextRunScheduled : Bool)
  /-- Sweep once, or until the program is interrupted. -/
  | sweep (watching : Bool)
  /-- Fetch the heads of branches from the server. -/
  | syncHeads (projectId : Nat) (refs : List String) (token : Option String)
  /-- List the pipelines and schedules of a project. -/
  | list (projectId : Nat)
  /-- Write the configuration to a file, over another one only by force. -/
  | writeConfiguration (path : String) (force : Bool)
  deriving DecidableEq, Repr

structure Invocation where
  command : Command
  configurationPath : Option String
  statePath : Option String
  json : Bool
  pretty : Bool
  deriving DecidableEq, Repr

end PipelineUpkeep

import PipelineUpkeep.Command.Workspace
import PipelineUpkeep.Remote.Heads
import PipelineUpkeep.Schedule.Watch
import PipelineUpkeep.Screen.Reports
/-!
# Execution of commands

A command loads its workspace, runs, saves the state, and then prints its result.
Whatever fails ends it with a message, before anything is saved or printed.  A
watch saves after each sweep that had entries and goes on if that fails.
-/

namespace PipelineUpkeep

open Data

/-- How a command ends. -/
inductive Ending where
  | done (printed : String)
  | failed (message : String)
  | crashed (fault : Fault)
  deriving DecidableEq, Repr

/-- What has come of a command: its end, the files and the rows in memory after it,
and the requests that it made. -/
structure Execution where
  ending : Ending
  directory : Directory
  store : Store
  requests : List WebRequest

namespace Execution

/-- The end by an error. -/
def fail (message : String) (directory : Directory) (store : Store) : Execution :=
  ⟨.failed message, directory, store, []⟩

end Execution

/-- A command at work. -/
structure Session where
  surroundings : Surroundings
  invocation : Invocation
  workspace : Workspace
  directory : Directory

namespace Session

def settings (session : Session) : CancellationSettings :=
  session.workspace.configuration.cancellationSettings

def rules (session : Session) : PolicyRules :=
  session.workspace.configuration.features.rules

def context (session : Session) : DeliveryContext :=
  ⟨session.rules, session.settings⟩

/-- The rows that were loaded. -/
def store (session : Session) : Store :=
  session.workspace.world.store

/-- End with an error. -/
def fail (session : Session) (message : String) (store : Store) : Execution :=
  .fail message session.directory store

/-- Print a result. -/
def report (session : Session) (json : Value) (screen : String) : Ending :=
  .done (session.workspace.answer session.invocation json screen)

/-- Save the state and print the result. -/
def conclude (session : Session) (world : World) (json : Value) (screen : String) : Execution :=
  match session.workspace.save session.surroundings world session.directory with
  | .error error => session.fail error.message world.store
  | .ok directory => ⟨session.report json screen, directory, world.store, []⟩

/-- Go on with the value of a run, unless it ended in a fault. -/
def afterRun {α : Type} (session : Session) (run : Except Fault α × World)
    (next : α → World → Execution) : Execution :=
  match run with
  | (.error fault, world) => ⟨.crashed fault, session.directory, world.store, []⟩
  | (.ok value, world) => next value world

/-! ## Commands -/

def cancelRedundant (session : Session) (pipelineId : Nat) : Execution :=
  match session.store.pipelines.find? pipelineId with
  | none => session.fail s!"Pipeline {pipelineId} not found" session.store
  | some pipeline =>
      let program := PipelineUpkeep.cancelRedundant session.rules session.settings pipeline
      session.afterRun (program.run session.workspace.world) fun result world =>
        match result with
        | .error _ =>
            session.fail s!"Failed to cancel redundant pipelines for {pipelineId}" world.store
        | .ok report =>
            session.conclude world report.encode (Screen.cancellation .plain report ++ "\n")

def createPipeline (session : Session) (request : CreationRequest) : Execution :=
  let program := createForRequest session.rules session.settings request
  session.afterRun (program.run session.workspace.world) fun result world =>
    match result with
    | .error error => session.fail error.message world.store
    | .ok response =>
        session.conclude world response.encode (Screen.creation .plain response ++ "\n")

def runSchedule (session : Session) (scheduleId userId : Nat) (nextRunScheduled : Bool) :
    Execution :=
  let program := deliver session.context scheduleId userId nextRunScheduled
  session.afterRun (program.run session.workspace.world) fun outcome world =>
    let entry : SweepEntry := ⟨scheduleId, outcome⟩
    session.conclude world entry.encode (Screen.scheduleRuns .plain [entry] ++ "\n")

def sweepOnce (session : Session) : Execution :=
  let world := session.workspace.world
  session.afterRun (sweep session.context world.clock world) fun result world =>
    match result with
    | .error error => session.fail error.message world.store
    | .ok entries =>
        session.conclude world (.ofList SweepEntry.encode entries)
          (Screen.scheduleRuns .plain entries ++ "\n")

/-- Save the state after a sweep that had entries. -/
def saveSweep (session : Session) : SweepHook Directory := fun entries world directory =>
  if entries.isEmpty then (world, directory)
  else
    match session.workspace.save session.surroundings world directory with
    | .ok directory => (world, directory)
    | .error error =>
        (world.addLog
          ⟨.warn, false, "Failed to persist state after sweep: " ++ error.message⟩, directory)

/-- The end of a watch. -/
def afterWatch : Option Fault × WatchState Directory → Execution
  | (fault, state) => ⟨fault.elim (.done "") .crashed, state.hookState, state.world.store, []⟩

def sweepUntilInterrupted (session : Session) : Execution :=
  afterWatch (watch session.context (session.workspace.configuration.sweepInterval * 1000)
    session.surroundings.interruptAfter session.saveSweep session.directory
    session.workspace.world)

/-- Store the heads that were found. -/
def storeHeads (store : Store) (heads : List RefHead) : Store :=
  heads.foldl Store.setRefHead store

/-- One line for each head. -/
def headLines (heads : List RefHead) : String :=
  String.join (heads.map fun head => head.ref ++ " " ++ head.sha ++ "\n")

/-- The heads among the results for branches. -/
def foundHeads (results : List (String × HeadResult)) : List RefHead :=
  results.filterMap fun (_, result) =>
    match result with
    | .ok head => head
    | .error _ => none

def syncHeads (session : Session) (projectId : Nat) (refs : List String)
    (token : Option String) : Execution :=
  match session.store.projects.find? projectId with
  | none => session.fail s!"Project {projectId} not found" session.store
  | some project =>
      let remote := session.workspace.configuration.remote
      match BranchServer.ofText remote.baseUrl ((token <|> remote.token).map Token.mk) with
      | .error error => session.fail error.message session.store
      | .ok server =>
          let (results, requests) :=
            server.branchHeads session.surroundings.network project.id project.path refs
          let heads := foundHeads results
          let world := session.workspace.world
          let world := { world with store := storeHeads world.store heads }
          { session.conclude world (.ofList RefHead.encode heads) (headLines heads) with
            requests }

/-- The pipelines and schedules of a project, by identifier. -/
def list (session : Session) (projectId : Nat) : Execution :=
  let store := session.store
  let pipelines := store.evaluate (Query.forProject projectId)
  let schedules := store.schedules.rows.filter (·.projectId == projectId)
  let json : Value :=
    .table [("pipelines", .ofList Pipeline.encode pipelines),
      ("schedules", .ofList Schedule.encode schedules)]
  let rows := pipelines.map fun pipeline => (pipeline, store.buildsOf pipeline.id)
  ⟨session.report json (Screen.pipelines .plain rows schedules ++ "\n"), session.directory, store,
    []⟩

def writeConfiguration (session : Session) (path : String) (force : Bool) : Execution :=
  if session.directory.has path && !force then
    session.fail (FileError.configurationPresent path).message session.store
  else
    match session.workspace.configuration.save session.surroundings.codec path
        session.directory with
    | .error error => session.fail error.message session.store
    | .ok directory => ⟨.done "", directory, session.store, []⟩

/-- Carry out the command. -/
def execute (session : Session) : Execution :=
  match session.invocation.command with
  | .cancelRedundant pipelineId => session.cancelRedundant pipelineId
  | .createPipeline projectId ref source userId =>
      session.createPipeline ⟨projectId, ref, source, userId, false, true, none⟩
  | .runSchedule scheduleId userId nextRunScheduled =>
      session.runSchedule scheduleId userId nextRunScheduled
  | .sweep false => session.sweepOnce
  | .sweep true => session.sweepUntilInterrupted
  | .syncHeads projectId refs token => session.syncHeads projectId refs token
  | .list projectId => session.list projectId
  | .writeConfiguration path force => session.writeConfiguration path force

end Session

/-- Load the workspace of an invocation and carry out its command. -/
def Invocation.execute (invocation : Invocation) (surroundings : Surroundings)
    (directory : Directory) : Execution :=
  match Workspace.load surroundings invocation directory with
  | (.error error, directory) => .fail error.message directory default
  | (.ok workspace, directory) =>
      Session.execute { surroundings, invocation, workspace, directory }

end PipelineUpkeep

import PipelineUpkeep.Command.Basic
import PipelineUpkeep.Configuration.File
import PipelineUpkeep.Data.Json.Printer
import PipelineUpkeep.Program.World
import PipelineUpkeep.Remote.Exchange
import PipelineUpkeep.Store.StateFile
/-!
# Workspaces of commands

A command works on the configuration and the state that it finds when it starts.
The rows of the state are kept in memory; only saving them changes a file.
-/

namespace PipelineUpkeep

open Data Time

/-- What a command finds around it, beside its directory. -/
structure Surroundings where
  codec : Codec
  /-- The path of the folder for data that belongs to no place in particular. -/
  dataFolder : String
  clock : Timestamp
  network : Network
  /-- The milliseconds after which a watch is interrupted. -/
  interruptAfter : Nat

namespace Surroundings

/-- The folder of the state file that is used if none is named. -/
def stateFolder (surroundings : Surroundings) : String :=
  surroundings.dataFolder ++ "/ci-autocancel"

def standardStatePath (surroundings : Surroundings) : String :=
  surroundings.stateFolder ++ "/state.json"

/-- The path of the state file.  The folder of the standard one is made. -/
def locateState (surroundings : Surroundings) (path : Option String) (directory : Directory) :
    Except FileError String × Directory :=
  match path with
  | some path => (.ok path, directory)
  | none =>
      match directory.makeFolders? surroundings.stateFolder with
      | some directory => (.ok surroundings.standardStatePath, directory)
      | none => (.error (.folderUnavailable surroundings.stateFolder), directory)

end Surroundings

structure Workspace where
  configuration : Configuration
  statePath : String
  world : World

namespace Workspace

/-- The world of a state: audit records go to the log. -/
def worldOf (surroundings : Surroundings) (snapshot : Snapshot) : World :=
  { World.start (Store.ofSnapshot snapshot) surroundings.clock with trail := .toLog }

/-- Load configuration and state. -/
def load (surroundings : Surroundings) (invocation : Invocation) (directory : Directory) :
    Except FileError Workspace × Directory :=
  match Configuration.load surroundings.codec directory invocation.configurationPath with
  | .error error => (.error error, directory)
  | .ok configuration =>
      match surroundings.locateState invocation.statePath directory with
      | (.error error, directory) => (.error error, directory)
      | (.ok statePath, directory) =>
          match Snapshot.load surroundings.codec directory statePath with
          | .error error => (.error error, directory)
          | .ok snapshot =>
              (.ok ⟨configuration, statePath, worldOf surroundings snapshot⟩, directory)

/-- Save the rows of a world as the state. -/
def save (surroundings : Surroundings) (workspace : Workspace) (world : World)
    (directory : Directory) : Except FileError Directory :=
  world.store.snapshot.save surroundings.codec workspace.statePath directory

/-- The form in which the result of a command is printed. -/
def answer (workspace : Workspace) (invocation : Invocation) (json : Value)
    (screen : String) : String :=
  if invocation.json || workspace.configuration.output.format = .json then
    let pretty := invocation.pretty || workspace.configuration.output.pretty
    (if pretty then Json.pretty json else Json.compact json) ++ "\n"
  else screen

end Workspace

end PipelineUpkeep

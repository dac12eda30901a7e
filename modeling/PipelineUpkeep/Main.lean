import PipelineUpkeep.Command.Execution
import PipelineUpkeep.Command.Line
/-!
# The program

Reads the files that a command line can touch, carries the command out on them,
and writes those that have changed.  The program reaches no network, so every
request to a server finds no connection.
-/

namespace PipelineUpkeep.Console

open Arguments Data Time

/-- The text of a file that can be read. -/
def readFile? (path : String) : IO (Option String) := do
  try
    return some (← IO.FS.readFile path)
  catch _ =>
    return none

/-- The path names a folder. -/
def isFolder (path : String) : IO Bool := do
  try
    (← IO.FS.realPath path).isDir
  catch _ =>
    return false

/-- The path of a place. -/
def pathOf (location : Location) : String :=
  "/" ++ "/".intercalate location

/-- The place that a path names if no file is in the way. -/
def locationOf (home : Location) (path : String) : Location :=
  let start := if path.toList.head? = some '/' then [] else home
  (Directory.pathParts path).foldl
    (fun location part =>
      if part = "" ∨ part = "." then location
      else if part = ".." then location.dropLast
      else location ++ [part])
    start

/-- The paths that an invocation can read or write. -/
def pathsOf (surroundings : Surroundings) (invocation : Invocation) : List String :=
  (match invocation.configurationPath with
    | some path => [path]
    | none => Configuration.candidates) ++
  [invocation.statePath.getD surroundings.standardStatePath] ++
  match invocation.command with
  | .writeConfiguration path _ => [path]
  | _ => []

/-- The part of the file system that lies on the way to some paths. -/
def readDirectory (home : Location) (paths : List String) : IO Directory := do
  let mut files := []
  let mut folders := []
  for path in paths do
    let location := locationOf home path
    if let some text ← readFile? (pathOf location) then
      files := files ++ [(location, text)]
    for length in List.range (location.length + 1) do
      if ← isFolder (pathOf (location.take length)) then
        folders := folders ++ [location.take length]
  return { home, files, folders }

/-- Make the new folders and write the files that have changed. -/
def writeDirectory (before after : Directory) : IO Unit := do
  for location in after.folders do
    unless before.folders.contains location do
      IO.FS.createDirAll (pathOf location)
  for (location, text) in after.files do
    unless before.fileAt? location = some text do
      IO.FS.writeFile (pathOf location) text

/-- The time at which a new file is made. -/
def currentTime : IO Timestamp := do
  let (_, path) ← IO.FS.createTempFile
  let time := (← path.metadata).modified
  IO.FS.removeFile path
  return ⟨time.sec, time.nsec.toNat⟩

/-- The values of the variables that stand in for options. -/
def readEnvironment : IO Environment := do
  let names := ["CI_AUTOCANCEL_STATE", "GITLAB_TOKEN"]
  names.filterMapM fun name => do
    return (← IO.getEnv name).map fun text => (name, text)

/-- The folder for data of the user. -/
def readDataFolder : IO String := do
  match ← IO.getEnv "XDG_DATA_HOME", ← IO.getEnv "HOME" with
  | some folder, _ => return folder
  | none, some home => return home ++ "/.local/share"
  | none, none => return "/"

/-- Print what has come of a command; gives the exit code. -/
def printEnding : Ending → IO UInt32
  | .done printed => do
      IO.print printed
      return 0
  | .failed message => do
      IO.eprintln ("Error: " ++ message)
      return 1
  | .crashed fault => do
      IO.eprintln fault.message
      return 101

/-- Answer a command line that names nothing to carry out. -/
def printUsage (error : UsageError) : IO UInt32 := do
  let commands := " | ".intercalate CommandLine.commandNames
  IO.eprintln ("usage: ci-autocancel [options] (" ++ commands ++ ")")
  match error with
  | .helpRequested | .versionRequested => return 0
  | error =>
      IO.eprintln ("error: " ++ error.name)
      return 2

/-- Sweep again and again; the program ends when it is interrupted. -/
def keepSweeping (session : Session) : IO UInt32 := do
  let mut session := session
  repeat
    let world := { session.workspace.world with clock := ← currentTime }
    session := { session with workspace.world := world }
    let execution := session.sweepUntilInterrupted
    writeDirectory session.directory execution.directory
    if let .crashed _ := execution.ending then
      return ← printEnding execution.ending
    session := { session with
      workspace.world.store := execution.store
      directory := execution.directory }
    let pause := session.workspace.configuration.sweepInterval * 1000
    IO.sleep (UInt32.ofNat (min pause (Text.bound32 - 1)))
  return 0

/-- Carry out an invocation. -/
def carryOut (invocation : Invocation) : IO UInt32 := do
  let home := locationOf [] (← IO.currentDir).toString
  let surroundings : Surroundings :=
    ⟨Codec.standard, ← readDataFolder, ← currentTime, fun _ _ => .refused, 1⟩
  let directory ← readDirectory home (pathsOf surroundings invocation)
  match Workspace.load surroundings invocation directory, invocation.command with
  | (.ok workspace, loaded), .sweep true =>
      writeDirectory directory loaded
      keepSweeping { surroundings, invocation, workspace, directory := loaded }
  | _, _ =>
      let execution := invocation.execute surroundings directory
      writeDirectory directory execution.directory
      printEnding execution.ending

end PipelineUpkeep.Console

def main (arguments : List String) : IO UInt32 := do
  match PipelineUpkeep.CommandLine.read (← PipelineUpkeep.Console.readEnvironment) arguments with
  | .ok invocation => PipelineUpkeep.Console.carryOut invocation
  | .error error => PipelineUpkeep.Console.printUsage error

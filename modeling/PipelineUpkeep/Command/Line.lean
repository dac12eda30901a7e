import PipelineUpkeep.Arguments.Reading
import PipelineUpkeep.Command.Basic
/-!
# Command lines

The outer level of a command line names the command; the options for files and
for the form of the answer may stand at either level.  The command with all its
arguments is checked before the outer level.
-/

namespace PipelineUpkeep

open Arguments

namespace CommandLine

/-! ## Levels -/

def help : Switch := ⟨"help", some 'h', .help⟩

def version : Switch := ⟨"version", some 'V', .version⟩

/-- A switch without a letter. -/
def plainSwitch (name : String) : Switch := ⟨name, none, .note⟩

def json : Switch := plainSwitch "json"

def pretty : Switch := ⟨"pretty", some 'p', .note⟩

def configuration : ValuedOption := ⟨"config", some 'c', .path, false, none⟩

def state : ValuedOption := ⟨"state", some 's', .path, false, some "CI_AUTOCANCEL_STATE"⟩

/-- The level of a command: its own switches and options, and those of every level. -/
def level (switches : List Switch) (options : List ValuedOption)
    (positional : Option ValuedOption) : Level where
  switches := switches ++ [json, pretty, help]
  options := options ++ [configuration, state]
  positional := positional
  commands := []

def project : ValuedOption := ⟨"project", some 'P', .number, false, none⟩

def pipeline : ValuedOption := ⟨"pipeline", some 'P', .number, false, none⟩

def schedule : ValuedOption := ⟨"schedule", some 'S', .number, false, none⟩

def user : ValuedOption := ⟨"user", some 'u', .number, false, none⟩

def ref : ValuedOption := ⟨"ref", some 'r', .text, false, none⟩

def refs : ValuedOption := ⟨"ref", some 'r', .text, true, none⟩

def source : ValuedOption := ⟨"source", none, .source, false, none⟩

def token : ValuedOption := ⟨"token", some 't', .text, false, some "GITLAB_TOKEN"⟩

def nextRunScheduled : Switch := plainSwitch "next-run-scheduled"

def watch : Switch := ⟨"watch", some 'w', .note⟩

def force : Switch := ⟨"force", some 'f', .note⟩

/-- The file that a configuration is written to; the place has no name on the line. -/
def path : ValuedOption := ⟨"path", none, .path, false, none⟩

/-! ## Commands -/

def required {α : Type} (value : Option α) : Except UsageError α :=
  match value with
  | some value => .ok value
  | none => .error .missingArgument

def number (found : Matches) (option : ValuedOption) : Option Nat :=
  (found.find? option.name).bind Match.number?

def text (found : Matches) (option : ValuedOption) : Option String :=
  (found.find? option.name).bind Match.text?

/-- A command with its level and its meaning. -/
structure Form where
  name : String
  level : Level
  build : Matches → Except UsageError Command

def forms : List Form := [
  { name := "cancel-redundant"
    level := level [] [pipeline] none
    build := fun found => do
      return .cancelRedundant (← required (number found pipeline)) },
  { name := "create-pipeline"
    level := level [] [project, ref, source, user] none
    build := fun found => do
      return .createPipeline (← required (number found project)) (← required (text found ref))
        (((found.find? source.name).bind Match.source?).getD .push)
        ((number found user).getD 1) },
  { name := "run-schedule"
    level := level [nextRunScheduled] [schedule, user] none
    build := fun found => do
      return .runSchedule (← required (number found schedule)) (← required (number found user))
        (found.has nextRunScheduled.name) },
  { name := "sweep"
    level := level [watch] [] none
    build := fun found => .ok (.sweep (found.has watch.name)) },
  { name := "sync-heads"
    level := level [] [project, refs, token] none
    build := fun found => do
      return .syncHeads (← required (number found project))
        (← required ((found.find? refs.name).map Match.texts)) (text found token) },
  { name := "show"
    level := level [] [project] none
    build := fun found => do return .list (← required (number found project)) },
  { name := "init-config"
    level := level [force] [] (some path)
    build := fun found =>
      .ok (.writeConfiguration ((text found path).getD "ci-autocancel.toml")
        (found.has force.name)) }]

/-- The word that asks for help on a command. -/
def helpCommand : String := "help"

/-- The names of commands, the one for help among them. -/
def commandNames : List String := forms.map Form.name ++ [helpCommand]

/-- The outer level. -/
def outerLevel : Level where
  switches := [json, pretty, help, version]
  options := [configuration, state]
  positional := none
  commands := commandNames

/-- Help may be asked for one command, which has none of its own. -/
def helpAnswer : List String → UsageError
  | [] => .helpRequested
  | [name] => if commandNames.contains name then .helpRequested else .unknownCommand
  | _ => .unknownCommand

/-- Put together what both levels say. -/
def invocation (command : Command) (inner outer : Matches) : Invocation where
  command := command
  configurationPath := (inner.prevailing outer configuration.name).bind Match.text?
  statePath := (inner.prevailing outer state.name).bind Match.text?
  json := inner.has json.name || outer.has json.name
  pretty := inner.has pretty.name || outer.has pretty.name

/-- Read the command after its name. -/
def readCommand (environment : Environment) (name : String) (words : List String) :
    Except UsageError (Command × Matches) :=
  match forms.find? (·.name == name) with
  | none => .error (helpAnswer words)
  | some form => do
      let found ← form.level.read environment words
      return (← form.build found, found)

/-- Read a command line, the name of the program left out. -/
def read (environment : Environment) (words : List String) : Except UsageError Invocation := do
  match ← Reading.readWords outerLevel words .start with
  | (reading, some (name, rest)) =>
      let (command, inner) ← readCommand environment name rest
      let outer ← outerLevel.fill environment (← reading.settle).found
      return invocation command inner outer
  | (reading, none) =>
      let outer ← outerLevel.fill environment (← reading.settle).found
      throw (if outer.isEmpty then .nothingGiven else .missingCommand)

end CommandLine

end PipelineUpkeep

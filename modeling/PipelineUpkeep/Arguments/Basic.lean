import PipelineUpkeep.Pipeline.Source
import PipelineUpkeep.Text.Decimal
/-!
# Arguments of a command line

A level of a command line has switches, options with a value, perhaps one place
for a word without a name, and perhaps commands that open a level of their own.
What a level was given is kept by name, together with where it came from: what
stands on the line outweighs what a variable of the environment says.
-/

namespace PipelineUpkeep.Arguments

open Text

/-- Why a command line names nothing to carry out. -/
inductive UsageError where
  | unknownArgument
  | unknownCommand
  | missingCommand
  | missingArgument
  /-- An option without its value, or with an empty value where that says nothing. -/
  | missingValue
  /-- A value that is not of its kind. -/
  | malformedValue
  | repeatedArgument
  /-- A value for a switch. -/
  | unwantedValue
  | helpRequested
  | versionRequested
  /-- Nothing was given at all, which asks for help. -/
  | nothingGiven
  deriving DecidableEq, Repr

namespace UsageError

def name : UsageError → String
  | unknownArgument => "UnknownArgument"
  | unknownCommand => "InvalidSubcommand"
  | missingCommand => "MissingSubcommand"
  | missingArgument => "MissingRequiredArgument"
  | missingValue => "InvalidValue"
  | malformedValue => "ValueValidation"
  | repeatedArgument => "ArgumentConflict"
  | unwantedValue => "TooManyValues"
  | helpRequested => "DisplayHelp"
  | versionRequested => "DisplayVersion"
  | nothingGiven => "DisplayHelpOnMissingArgumentOrSubcommand"

end UsageError

/-- What the value of an option is. -/
inductive ValueKind where
  | number
  | source
  /-- The name of a file, which is not empty. -/
  | path
  | text
  deriving DecidableEq, Repr

inductive ArgumentValue where
  | number (n : Nat)
  | source (source : Source)
  | text (text : String)
  deriving DecidableEq, Repr

/-- Read a value.  Numbers have 64 bits and may have a plus sign. -/
def ValueKind.read (kind : ValueKind) (given : String) : Except UsageError ArgumentValue :=
  match kind with
  | .number =>
      match readNatUpTo? (bound64 - 1) given.toList with
      | some n => .ok (.number n)
      | none => .error .malformedValue
  | .source =>
      match Source.ofName? given with
      | some known => .ok (.source known)
      | none => .error .malformedValue
  | .path => if given = "" then .error .missingValue else .ok (.text given)
  | .text => .ok (.text given)

/-- An option with a value. -/
structure ValuedOption where
  name : String
  short : Option Char
  kind : ValueKind
  /-- The option may be given several times, and each value counts. -/
  repeatable : Bool
  /-- The variable of the environment that stands in for the option. -/
  environmentName : Option String
  deriving DecidableEq, Repr

inductive SwitchEffect where
  /-- Note that the switch was given. -/
  | note
  | help
  | version
  deriving DecidableEq, Repr

structure Switch where
  name : String
  short : Option Char
  effect : SwitchEffect
  deriving DecidableEq, Repr

/-- What a level understands. -/
structure Level where
  switches : List Switch
  options : List ValuedOption
  /-- The place for a word without a name. -/
  positional : Option ValuedOption
  /-- The words that open another level. -/
  commands : List String
  deriving DecidableEq, Repr

/-- A switch or option that was found. -/
inductive Argument where
  | switch (switch : Switch)
  | option (option : ValuedOption)
  deriving DecidableEq, Repr

namespace Level

/-- The argument with a long name. -/
def long? (level : Level) (name : String) : Option Argument :=
  ((level.switches.find? (·.name == name)).map .switch) <|>
    (level.options.find? (·.name == name)).map .option

/-- The argument with a letter. -/
def short? (level : Level) (letter : Char) : Option Argument :=
  ((level.switches.find? (·.short == some letter)).map .switch) <|>
    (level.options.find? (·.short == some letter)).map .option

end Level

/-- Where a value comes from. -/
inductive Origin where
  | environment
  | line
  deriving DecidableEq, Repr

/-- What an argument was given; a switch has no value. -/
structure Match where
  name : String
  origin : Origin
  values : List ArgumentValue
  deriving DecidableEq, Repr

/-- What a level was given, each name once. -/
abbrev Matches := List Match

namespace Matches

def find? (found : Matches) (name : String) : Option Match :=
  List.find? (·.name == name) found

def has (found : Matches) (name : String) : Bool :=
  (find? found name).isSome

/-- Add a value to those of a name. -/
def addValue (name : String) (origin : Origin) (value : ArgumentValue) (found : Matches) :
    Matches :=
  match found with
  | [] => [⟨name, origin, [value]⟩]
  | first :: rest =>
      if first.name = name then ⟨name, origin, first.values ++ [value]⟩ :: rest
      else first :: addValue name origin value rest

/-- Record the value of an option. -/
def record (origin : Origin) (option : ValuedOption) (text : String) (found : Matches) :
    Except UsageError Matches :=
  if !option.repeatable && found.has option.name then .error .repeatedArgument
  else (option.kind.read text).map (addValue option.name origin · found)

/-- Record a switch, or answer what it asks for. -/
def flip (switch : Switch) (found : Matches) : Except UsageError Matches :=
  match switch.effect with
  | .help => .error .helpRequested
  | .version => .error .versionRequested
  | .note =>
      if found.has switch.name then .error .repeatedArgument
      else .ok (found ++ [⟨switch.name, .line, []⟩])

/-- The match that counts where an argument may stand at two levels: the inner one,
unless it only comes from the environment and the outer one does not. -/
def prevailing (inner outer : Matches) (name : String) : Option Match :=
  match inner.find? name, outer.find? name with
  | some fromInner, some fromOuter =>
      if fromInner.origin = .environment ∧ fromOuter.origin = .line then some fromOuter
      else some fromInner
  | some fromInner, none => some fromInner
  | none, fromOuter => fromOuter

end Matches

namespace Match

def number? (found : Match) : Option Nat :=
  found.values.findSome? fun
    | .number n => some n
    | _ => none

def source? (found : Match) : Option Source :=
  found.values.findSome? fun
    | .source source => some source
    | _ => none

/-- Every text that was given. -/
def texts (found : Match) : List String :=
  found.values.filterMap fun
    | .text text => some text
    | _ => none

def text? (found : Match) : Option String :=
  found.texts.head?

end Match

theorem Matches.has_addValue_self (name : String) (origin : Origin) (value : ArgumentValue)
    (found : Matches) : (Matches.addValue name origin value found).has name = true := by
  unfold Matches.has Matches.find?
  induction found with
  | nil => simp [Matches.addValue]
  | cons first rest ih =>
      by_cases hName : first.name = name
      · simp [Matches.addValue, hName]
      · simpa [Matches.addValue, hName] using ih

end PipelineUpkeep.Arguments

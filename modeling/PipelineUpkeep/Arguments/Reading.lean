import PipelineUpkeep.Arguments.Basic
import PipelineUpkeep.Text.Blank
/-!
# Reading a level

The words of a line are read from left to right.  A value that stands in a word
of its own is only looked at when the next argument starts or the level ends, so
that an unknown argument right after it is reported first.  Two dashes alone end
the arguments with names.
-/

namespace PipelineUpkeep.Arguments

open Text

/-- The shape of a word. -/
inductive Word where
  /-- Two dashes alone. -/
  | separator
  /-- A long name, perhaps with a value after an equals sign. -/
  | long (name : String) (attached : Option String)
  /-- Letters after one dash. -/
  | letters (letters : List Char)
  /-- Anything else; one dash alone too. -/
  | plain
  deriving DecidableEq, Repr

def Word.ofText (text : String) : Word :=
  match text.toList with
  | ['-', '-'] => separator
  | '-' :: '-' :: rest =>
      match splitAtFirst? '=' rest with
      | some (name, value) => long (String.ofList name) (some (String.ofList value))
      | none => long (String.ofList rest) none
  | '-' :: letter :: rest => letters (letter :: rest)
  | _ => plain

/-- How far a level is read. -/
structure Reading where
  found : Matches
  /-- The option that was named last, with its value once that is there. -/
  pending : Option (ValuedOption × Option String)
  /-- The place for a word without a name is taken. -/
  placed : Bool

namespace Reading

def start : Reading := ⟨[], none, false⟩

/-- Record the pending option. -/
def settle (reading : Reading) : Except UsageError Reading :=
  match reading.pending with
  | none => .ok reading
  | some (_, none) => .error .missingValue
  | some (option, some text) =>
      (Matches.record .line option text reading.found).map fun found =>
        { reading with found, pending := none }

/-- Start an option whose value is another word. -/
def await (reading : Reading) (option : ValuedOption) : Except UsageError Reading := do
  let reading ← reading.settle
  return { reading with pending := some (option, none) }

/-- Take an option with a value in the same word. -/
def attach (reading : Reading) (option : ValuedOption) (text : String) :
    Except UsageError Reading := do
  let reading ← reading.settle
  let found ← Matches.record .line option text reading.found
  return { reading with found }

def flip (reading : Reading) (switch : Switch) : Except UsageError Reading := do
  let reading ← reading.settle
  let found ← Matches.flip switch reading.found
  return { reading with found }

/-- Read a word with a long name. -/
def readLong (level : Level) (name : String) (attached : Option String) (reading : Reading) :
    Except UsageError Reading :=
  match level.long? name, attached with
  | none, _ => .error .unknownArgument
  | some (.switch _), some _ => .error .unwantedValue
  | some (.switch switch), none => reading.flip switch
  | some (.option option), some text => reading.attach option text
  | some (.option option), none => reading.await option

/-- Read a word of letters.  What follows the letter of an option is its value, an
equals sign in front of it left out. -/
def readLetters (level : Level) : List Char → Reading → Except UsageError Reading
  | [], reading => .ok reading
  | letter :: rest, reading =>
      match level.short? letter with
      | none => .error .unknownArgument
      | some (.switch switch) => do readLetters level rest (← reading.flip switch)
      | some (.option option) =>
          match rest with
          | [] => reading.await option
          | '=' :: value => reading.attach option (String.ofList value)
          | value => reading.attach option (String.ofList value)

/-- The error for a word that has no place.  After two dashes the name of a command
is not one. -/
def strayError (level : Level) (separated : Bool) (word : String) : UsageError :=
  if level.commands.isEmpty || (separated && level.commands.contains word) then .unknownArgument
  else .unknownCommand

/-- Read a word without a name. -/
def place (level : Level) (separated : Bool) (word : String) (reading : Reading) :
    Except UsageError Reading :=
  match level.positional, reading.placed with
  | some option, false => do
      let reading ← reading.settle
      return { reading with pending := some (option, some word), placed := true }
  | _, _ => .error (strayError level separated word)

/-- Read words after two dashes. -/
def readSeparated (level : Level) : List String → Reading → Except UsageError Reading
  | [], reading => .ok reading
  | word :: rest, reading => do readSeparated level rest (← reading.place level true word)

/-- Read words up to the end or up to the name of a command; gives that name and
the words after it. -/
def readWords (level : Level) :
    List String → Reading → Except UsageError (Reading × Option (String × List String))
  | [], reading => .ok (reading, none)
  | word :: rest, reading =>
      match Word.ofText word with
      | .separator => do return (← readSeparated level rest reading, none)
      | .long name attached => do readWords level rest (← reading.readLong level name attached)
      | .letters letters => do readWords level rest (← reading.readLetters level letters)
      | .plain =>
          match reading.pending with
          -- The word is the value that the last option still lacks.
          | some (option, none) =>
              readWords level rest { reading with pending := some (option, some word) }
          | _ =>
              if level.commands.contains word then .ok (reading, some (word, rest))
              else do readWords level rest (← reading.place level false word)

end Reading

/-- The values of variables. -/
abbrev Environment := List (String × String)

/-- Take the options that were not given from the environment. -/
def Level.fill (level : Level) (environment : Environment) (found : Matches) :
    Except UsageError Matches :=
  level.options.foldlM
    (fun found option =>
      if found.has option.name then .ok found
      else
        match option.environmentName.bind (List.lookup · environment) with
        | none => .ok found
        | some text => found.record .environment option text)
    found

/-- What the words of an innermost level give. -/
def Level.read (level : Level) (environment : Environment) (words : List String) :
    Except UsageError Matches := do
  let (reading, _) ← Reading.readWords level words .start
  level.fill environment (← reading.settle).found

end PipelineUpkeep.Arguments

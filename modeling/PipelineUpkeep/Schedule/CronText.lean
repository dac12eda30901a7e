import PipelineUpkeep.Schedule.CronField
/-!
# Cron expressions as text

Reads six or seven fields: second, minute, hour, day of month, month, day of the
week, and optionally the year.  Blanks are space, tab, line feed and carriage
return; they may stand around every number, name and mark.  No blank is needed
between two fields, so a field ends where no further item can be read.
-/

namespace PipelineUpkeep.Cron

open Text

/-- Read one thing from the front of a text and give the rest. -/
abbrev Reader (α : Type) := List Char → Option (α × List Char)

/-- Drop the blanks of a cron expression. -/
def skipBlanks (text : List Char) : List Char :=
  text.dropWhile fun c => c == ' ' || c == '\t' || c == '\n' || c == '\r'

/-- A number below 2³² with blanks around it. -/
def readNumber? : Reader Nat := fun text =>
  let (digits, rest) := spanDigits (skipBlanks text)
  if digits.isEmpty then none
  else
    let value := digitsValue digits
    if value < bound32 then some (value, skipBlanks rest) else none

/-- ASCII letters with blanks around them. -/
def readName? : Reader (List Char) := fun text =>
  let text := skipBlanks text
  let letters := text.takeWhile Char.isAlpha
  if letters.isEmpty then none else some (letters, skipBlanks (text.drop letters.length))

/-- One character. -/
def readChar? (expected : Char) : Reader Unit
  | [] => none
  | c :: rest => if c = expected then some ((), rest) else none

/-- One character with blanks around it. -/
def readMark? (mark : Char) : Reader Unit := fun text =>
  (readChar? mark (skipBlanks text)).map fun (_, rest) => ((), skipBlanks rest)

/-- Two things with a dash between them. -/
def readDashed? {α : Type} (read : Reader α) : Reader (α × α) := fun text => do
  let (low, text) ← read text
  let ((), text) ← readChar? '-' text
  let (high, text) ← read text
  some ((low, high), text)

/-- A shape; the first alternative that can be read counts. -/
def readShape? (questionMark : Bool) : Reader Shape := fun text =>
  let question := if questionMark then readMark? '?' text else none
  (question.map fun (_, rest) => (Shape.all, rest)) <|>
    ((readMark? '*' text).map fun (_, rest) => (Shape.all, rest)) <|>
    -- A range comes before a point, since it starts with one.
    ((readDashed? readNumber? text).map fun (ends, rest) => (Shape.range ends.1 ends.2, rest)) <|>
    ((readNumber? text).map fun (value, rest) => (Shape.point value, rest)) <|>
    ((readDashed? readName? text).map fun (ends, rest) => (Shape.namedRange ends.1 ends.2, rest))

/-- A shape with a step. -/
def readStepped? (questionMark : Bool) : Reader Item := fun text => do
  let (shape, text) ← readShape? questionMark text
  let ((), text) ← readChar? '/' text
  let (step, text) ← readNumber? text
  some (.stepped shape step, text)

/-- An item; the first alternative that can be read counts. -/
def readItem? (questionMark : Bool) : Reader Item := fun text =>
  readStepped? questionMark text <|>
    ((readShape? questionMark text).map fun (shape, rest) => (Item.plain shape, rest)) <|>
    ((readName? text).map fun (name, rest) => (Item.named name, rest))

/-- Items after the first, at most `count`.  A comma that no item follows is left
in the rest. -/
def readMoreItems (questionMark : Bool) : Nat → List Char → List Item × List Char
  | 0, text => ([], text)
  | count + 1, text =>
      match readChar? ',' text with
      | none => ([], text)
      | some ((), rest) =>
          match readItem? questionMark rest with
          | none => ([], text)
          | some (item, rest) =>
              let (items, rest) := readMoreItems questionMark count rest
              (item :: items, rest)

/-- One field.  Every item takes at least one character, so the length of the text
bounds their number. -/
def readItems? (questionMark : Bool) : Reader (List Item) := fun text => do
  let (first, rest) ← readItem? questionMark (skipBlanks text)
  let (more, rest) := readMoreItems questionMark rest.length rest
  some (first :: more, skipBlanks rest)

/-- The set that one field denotes. -/
def readField? (range : FieldRange) : Reader (List Nat) := fun text => do
  let (items, rest) ← readItems? range.questionMark text
  let values ← fieldValues? range items
  some (values, rest)

/-- The sets of a whole expression, each strictly increasing. -/
structure Fields where
  seconds : List Nat
  minutes : List Nat
  hours : List Nat
  daysOfMonth : List Nat
  months : List Nat
  daysOfWeek : List Nat
  years : List Nat
  deriving DecidableEq, Repr

/-- Read a whole expression; without a seventh field all years count. -/
def Fields.ofChars? (text : List Char) : Option Fields := do
  let (seconds, text) ← readField? .seconds text
  let (minutes, text) ← readField? .minutes text
  let (hours, text) ← readField? .hours text
  let (daysOfMonth, text) ← readField? .daysOfMonth text
  let (months, text) ← readField? .months text
  let (daysOfWeek, text) ← readField? .daysOfWeek text
  let (years, text) := (readField? .years text).getD (FieldRange.years.values, text)
  if text.isEmpty then
    some { seconds, minutes, hours, daysOfMonth, months, daysOfWeek, years }
  else none

end PipelineUpkeep.Cron

import PipelineUpkeep.Text.Decimal
/-!
# The weekday field of a five-field expression

The field is a list of items between commas.  An item is an asterisk, a day or a
range of days, each with an optional step.  Days are numbered from Sunday as
zero; seven is Sunday too, and the English three-letter names are read in any
case.  A single day with a step starts a range that ends on Saturday, and so
does the asterisk's range.  The first item that cannot be read decides the error.
-/

namespace PipelineUpkeep.Cron

open Text

/-- A weekday field: a mark that stands for every day, or days from 0 to 6 in
increasing order. -/
inductive WeekdayField where
  | every (mark : Char)
  | days (numbers : List Nat)
  deriving DecidableEq, Repr

/-- Names of the days from Sunday. -/
def weekdayNames : List (List Char) :=
  [['S', 'U', 'N'], ['M', 'O', 'N'], ['T', 'U', 'E'], ['W', 'E', 'D'], ['T', 'H', 'U'],
    ['F', 'R', 'I'], ['S', 'A', 'T']]

inductive WeekdayError where
  | step (item : List Char)
  | range (text : List Char)
  | outOfRange (day : Nat)
  | unreadable (token : List Char)
  deriving DecidableEq, Repr

def WeekdayError.message : WeekdayError → String
  | step item => "invalid day-of-week step in '" ++ String.ofList item ++ "'"
  | range text => "invalid day-of-week range '" ++ String.ofList text ++ "'"
  | outOfRange day => "day-of-week " ++ toString day ++ " is out of range 0-7"
  | unreadable token => "invalid day-of-week '" ++ String.ofList token ++ "'"

/-- A day from 0 to 7, as a number below 2³² or as a name. -/
def readWeekday (token : List Char) : Except WeekdayError Nat :=
  match readNatUpTo? (bound32 - 1) token with
  | some day => if day ≤ 7 then .ok day else .error (.outOfRange day)
  | none =>
      match weekdayNames.findIdx? (· == token.map Char.toUpper) with
      | some day => .ok day
      | none => .error (.unreadable token)

/-- The part of an item before its step, and the step. -/
def splitStep (item : List Char) : Except WeekdayError (List Char × Option Nat) :=
  match splitAtFirst? '/' item with
  | none => .ok (item, none)
  | some (range, step) =>
      match readNatUpTo? (bound64 - 1) step with
      | some (step + 1) => .ok (range, some (step + 1))
      | _ => .error (.step item)

/-- The first and the last day of an item without its step. -/
def weekdayEnds (range : List Char) (hasStep : Bool) : Except WeekdayError (Nat × Nat) :=
  if range = ['*'] then .ok (0, 6)
  else
    match splitAtFirst? '-' range with
    | some (first, last) => do
        let first ← readWeekday first
        let last ← readWeekday last
        .ok (first, last)
    | none => do
        let day ← readWeekday range
        .ok (day, if hasStep then 6 else day)

/-- The days `first`, `first + step`, … up to `last`. -/
def steppedDays (first last step : Nat) : List Nat :=
  (List.range' first (last + 1 - first)).filter fun day => (day - first) % step == 0

/-- The days of one item, from 0 to 6. -/
def weekdayItemDays (item : List Char) : Except WeekdayError (List Nat) := do
  let (range, step) ← splitStep item
  let (first, last) ← weekdayEnds range step.isSome
  if first > last then .error (.range range)
  -- Seven becomes Sunday again only once the range is walked.
  else .ok ((steppedDays first last (step.getD 1)).map (· % 7))

/-- Read a whole weekday field. -/
def WeekdayField.ofChars (field : List Char) : Except WeekdayError WeekdayField :=
  if field = ['*'] then .ok (.every '*')
  else if field = ['?'] then .ok (.every '?')
  else do
    let days ← (field.splitOn ',').mapM weekdayItemDays
    .ok (.days ((List.range 7).filter fun day => days.any (·.contains day)))

/-- The field with days counted from Sunday as one. -/
def WeekdayField.toChars : WeekdayField → List Char
  | every mark => [mark]
  | days numbers => [','].intercalate (numbers.map fun day => natDigits (day + 1))

end PipelineUpkeep.Cron

import PipelineUpkeep.Text.Decimal
import PipelineUpkeep.Time.Timestamp
/-!
# Instants as text

Writing follows RFC 3339 in UTC: the fraction has no digits, or the fewest of
three, six and nine that are exact; a leap second is second 60; a year outside
0 to 9999 has a sign.

Reading is more lenient than RFC 3339.  One-digit months, days and times are
read; blanks may stand before numbers, separators and the offset, and at the
end; date and time are separated by `T`, `t` or one space; the offset is `Z`,
`z`, `UTC` in any case, or hours and minutes with a sign.  Every minute may have
a second 60.  Date and time must exist, before and after the offset is applied.
-/

namespace PipelineUpkeep.Time

open PipelineUpkeep.Text

/-- Year, four digits at least, with a sign outside 0 to 9999. -/
def yearText (year : Int) : String :=
  if 0 ≤ year ∧ year ≤ 9999 then padded 4 year.toNat
  else if 0 ≤ year then "+" ++ padded 4 year.toNat
  else "-" ++ padded 4 year.natAbs

/-- A fraction of a second: nothing, or a point and 3, 6 or 9 digits. -/
def fractionText (nanosecond : Nat) : String :=
  if nanosecond == 0 then ""
  else if nanosecond % 1000000 == 0 then "." ++ padded 3 (nanosecond / 1000000)
  else if nanosecond % 1000 == 0 then "." ++ padded 6 (nanosecond / 1000)
  else "." ++ padded 9 nanosecond

namespace Timestamp

def dateText (t : Timestamp) : String :=
  let date := t.date
  yearText date.year ++ "-" ++ padded 2 date.month ++ "-" ++ padded 2 date.day

/-- Hours and minutes. -/
def clockText (t : Timestamp) : String :=
  padded 2 t.hour ++ ":" ++ padded 2 t.minute

/-- Hours, minutes and seconds with their fraction. -/
def timeText (t : Timestamp) : String :=
  let isLeap := t.nanosecond ≥ 1000000000
  let second := if isLeap then t.secondOfMinute + 1 else t.secondOfMinute
  let fraction := if isLeap then t.nanosecond - 1000000000 else t.nanosecond
  t.clockText ++ ":" ++ padded 2 second ++ fractionText fraction

/-- For instance `2024-03-01T10:30:00.500Z`. -/
def toRfc3339 (t : Timestamp) : String :=
  t.dateText ++ "T" ++ t.timeText ++ "Z"

/-- For instance `2024-03-01 10:30:00.500 UTC`. -/
def toSpaced (t : Timestamp) : String :=
  t.dateText ++ " " ++ t.timeText ++ " UTC"

/-- For instance `2024-03-01 10:30`. -/
def toMinutes (t : Timestamp) : String :=
  t.dateText ++ " " ++ t.clockText

end Timestamp

/-- A number of one to `width` digits after blanks, and the rest. -/
def readNumber? (width : Nat) (text : List Char) : Option (Nat × List Char) :=
  let text := trimStart text
  let digits := (text.takeWhile isDigit).take width
  if digits.isEmpty then none else some (digitsValue digits, text.drop digits.length)

/-- A year: up to four digits without a sign, any number of digits with one. -/
def readYear? (text : List Char) : Option (Int × List Char) :=
  match trimStart text with
  | '-' :: rest => do
      let (digits, rest) := spanDigits rest
      if digits.isEmpty then none else some (-(digitsValue digits : Int), rest)
  | '+' :: rest => do
      let (digits, rest) := spanDigits rest
      if digits.isEmpty then none else some ((digitsValue digits : Int), rest)
  | text => (readNumber? 4 text).map fun (year, rest) => ((year : Int), rest)

/-- One separator after blanks, and the rest. -/
def readSeparator? (separator : Char) (text : List Char) : Option (List Char) :=
  match trimStart text with
  | [] => none
  | c :: rest => if c = separator then some rest else none

/-- An optional fraction in nanoseconds; digits after the ninth are dropped. -/
def readFraction? (text : List Char) : Option (Nat × List Char) :=
  match text with
  | '.' :: rest =>
      let (digits, rest) := spanDigits rest
      if digits.isEmpty then none
      else
        let kept := digits.take 9
        some (digitsValue kept * Nat.pow 10 (9 - kept.length), rest)
  | _ => some (0, text)

/-- Two digits. -/
def readPair? : List Char → Option (Nat × List Char)
  | tens :: ones :: rest =>
      if isDigit tens && isDigit ones then some (10 * digitValue tens + digitValue ones, rest)
      else none
  | _ => none

/-- The offset from UTC in seconds. -/
def readOffset? (text : List Char) : Option (Int × List Char) :=
  let signed (negative : Bool) (text : List Char) : Option (Int × List Char) := do
    let (hours, text) ← readPair? text
    let text := text.dropWhile fun c => c == ':' || isBlank c
    let (minutes, rest) ← readPair? text
    let seconds : Int := hours * 3600 + minutes * 60
    if minutes < 60 ∧ seconds < 86400 then
      some (if negative then -seconds else seconds, rest)
    else none
  match text with
  | 'Z' :: rest => some (0, rest)
  | 'z' :: rest => some (0, rest)
  | '+' :: rest => signed false rest
  | '-' :: rest => signed true rest
  -- The typographic minus sign.
  | '\u2212' :: rest => signed true rest
  | a :: b :: c :: rest =>
      if [a, b, c].map Char.toUpper == ['U', 'T', 'C'] then some (0, rest) else none
  | _ => none

/-- Read an instant from the whole text. -/
def Timestamp.ofChars? (text : List Char) : Option Timestamp := do
  let (year, text) ← readYear? text
  let text ← readSeparator? '-' text
  let (month, text) ← readNumber? 2 text
  let text ← readSeparator? '-' text
  let (day, text) ← readNumber? 2 text
  let text ← match text with
    | 'T' :: rest | 't' :: rest | ' ' :: rest => some rest
    | _ => none
  let (hour, text) ← readNumber? 2 text
  let text ← readSeparator? ':' text
  let (minute, text) ← readNumber? 2 text
  let text ← readSeparator? ':' text
  let (second, text) ← readNumber? 2 text
  let (fraction, text) ← readFraction? text
  let (offset, text) ← readOffset? (trimStart text)
  let date : Date := ⟨year, month, day⟩
  if date.IsValid ∧ hour < 24 ∧ minute < 60 ∧ second ≤ 60 ∧ (trimStart text).isEmpty then
    -- Second 60 extends second 59, whatever the minute.
    let isLeap := second == 60
    let localSecond :=
      (Timestamp.ofDateTime date hour minute (if isLeap then 59 else second)).second
    let second := localSecond - offset
    if inRange localSecond ∧ inRange second then
      some ⟨second, if isLeap then fraction + 1000000000 else fraction⟩
    else none
  else none

/-- Read an instant from the whole text. -/
def Timestamp.ofString? (text : String) : Option Timestamp :=
  Timestamp.ofChars? text.toList

end PipelineUpkeep.Time

import PipelineUpkeep.Data.Value
import PipelineUpkeep.Text.Hexadecimal
import PipelineUpkeep.Time.Calendar
/-!
# Scalars of TOML

Texts in four kinds of quotes, truth values, numbers, dates and times.  Integers
have 64 bits with a sign.  Real numbers, dates and times are checked, but no
record of this library can hold one, so their value is not kept.  Every reader
gives back what follows.
-/

namespace PipelineUpkeep.Data.Toml

open Text Time

/-- A character that may stand in a comment or a quoted text: no control
character but the tab. -/
def isPrintable (c : Char) : Bool :=
  c == '\t' || (0x20 ≤ c.toNat && c.toNat != 0x7F)

/-- Drop spaces and tabs. -/
def skipSpaces (text : List Char) : List Char :=
  text.dropWhile fun c => c == ' ' || c == '\t'

/-- A line break: a line feed, with or without a carriage return before it. -/
def readLineBreak? : List Char → Option (List Char)
  | '\n' :: rest => some rest
  | '\r' :: '\n' :: rest => some rest
  | _ => none

/-- Drop a comment if one stands at the front. -/
def skipComment : List Char → List Char
  | '#' :: rest => rest.dropWhile isPrintable
  | text => text

/-- The character of an escape sequence after its backslash. -/
def readEscape? : List Char → Option (Char × List Char)
  | 'b' :: rest => some ('\x08', rest)
  | 't' :: rest => some ('\t', rest)
  | 'n' :: rest => some ('\n', rest)
  | 'f' :: rest => some ('\x0c', rest)
  | 'r' :: rest => some ('\r', rest)
  | '"' :: rest => some ('"', rest)
  | '\\' :: rest => some ('\\', rest)
  | 'u' :: rest => readCodePoint? 4 rest
  | 'U' :: rest => readCodePoint? 8 rest
  | _ => none

/-- A text on one line in double quotes, after the opening quote. -/
def readBasic? : Nat → List Char → Option (List Char × List Char)
  | 0, _ => none
  | fuel + 1, text =>
      match text with
      | [] => none
      | '"' :: rest => some ([], rest)
      | '\\' :: rest => do
          let (c, rest) ← readEscape? rest
          let (content, rest) ← readBasic? fuel rest
          some (c :: content, rest)
      | c :: rest =>
          if isPrintable c then do
            let (content, rest) ← readBasic? fuel rest
            some (c :: content, rest)
          else none

/-- A text on one line in single quotes, after the opening quote. -/
def readLiteral? (text : List Char) : Option (List Char × List Char) :=
  let content := text.takeWhile fun c => c != '\'' && isPrintable c
  match text.drop content.length with
  | '\'' :: rest => some (content, rest)
  | _ => none

/-- The quotes at the end of a text over several lines: three close it, and up to
two more before them belong to it. -/
def closingQuotes? (quote : Char) (text : List Char) : Option (List Char × List Char) :=
  let count := (text.takeWhile (· == quote)).length
  if count < 3 then none
  else
    -- The last three close the text; those before them are content.
    let extra := min (count - 3) 2
    some (List.replicate extra quote, text.drop (extra + 3))

/-- Drop the blanks and line breaks after a backslash at the end of a line. -/
def skipLineBreaks : Nat → List Char → List Char
  | 0, text => text
  | fuel + 1, text =>
      let text := skipSpaces text
      match readLineBreak? text with
      | some rest => skipLineBreaks fuel rest
      | none => text

/-- A text over several lines, after the opening quotes and the line break that
may follow them.  Only in double quotes are there escape sequences. -/
def readLines? (quote : Char) : Nat → List Char → Option (List Char × List Char)
  | 0, _ => none
  | fuel + 1, text =>
      match closingQuotes? quote text with
      | some closed => some closed
      | none =>
          match readLineBreak? text with
          | some rest => do
              let (content, rest) ← readLines? quote fuel rest
              some ('\n' :: content, rest)
          | none =>
              match text with
              | [] => none
              | c :: rest =>
                  if c = '\\' ∧ quote = '"' then
                    match readLineBreak? (skipSpaces rest) with
                    | some rest => readLines? quote fuel (skipLineBreaks fuel rest)
                    | none => do
                        let (escaped, rest) ← readEscape? rest
                        let (content, rest) ← readLines? quote fuel rest
                        some (escaped :: content, rest)
                  else if isPrintable c then do
                    let (content, rest) ← readLines? quote fuel rest
                    some (c :: content, rest)
                  else none

/-- Drop the line break that may follow the opening quotes. -/
def skipFirstLineBreak (text : List Char) : List Char :=
  (readLineBreak? text).getD text

/-- A text in quotes of any kind; `size` bounds its length. -/
def readQuoted? (size : Nat) : List Char → Option (List Char × List Char)
  | '"' :: '"' :: '"' :: rest => readLines? '"' size (skipFirstLineBreak rest)
  | '\'' :: '\'' :: '\'' :: rest => readLines? '\'' size (skipFirstLineBreak rest)
  | '"' :: rest => readBasic? size rest
  | '\'' :: rest => readLiteral? rest
  | _ => none

/-- The digits of a numeral in a base, between which single underscores may
stand. -/
def readSpacedDigits? (isBaseDigit : Char → Bool) (text : List Char) : Option (List Char) :=
  let groups := text.splitOn '_'
  if groups.all fun group => !group.isEmpty && group.all isBaseDigit then
    some groups.flatten
  else none

/-- The number that digits denote in a base, with underscores between them. -/
def numberInBase? (base : Nat) (text : List Char) : Option Nat := do
  valueInBase? base (← readSpacedDigits? (fun c => (hexValue? c).any (· < base)) text)

/-- A decimal numeral without leading zeros. -/
def readDecimal? (text : List Char) : Option Nat := do
  let digits ← readSpacedDigits? isDigit text
  match digits with
  | '0' :: _ :: _ => none
  | digits => some (digitsValue digits)

/-- Split a sign from the front: whether it is a minus. -/
def splitSign : List Char → Bool × List Char
  | '-' :: rest => (true, rest)
  | '+' :: rest => (false, rest)
  | text => (false, text)

/-- An integer with a sign and 64 bits. -/
def readInteger? (text : List Char) : Option Int :=
  let magnitude? : Option (Bool × Nat) := match text with
    | '0' :: 'x' :: digits => (numberInBase? 16 digits).map (false, ·)
    | '0' :: 'o' :: digits => (numberInBase? 8 digits).map (false, ·)
    | '0' :: 'b' :: digits => (numberInBase? 2 digits).map (false, ·)
    | text =>
        let (negative, digits) := splitSign text
        (readDecimal? digits).map (negative, ·)
  match magnitude? with
  | some (true, n) => if n ≤ bound63 then some (-(n : Int)) else none
  | some (false, n) => if n < bound63 then some n else none
  | none => none

/-- The text after an exponent mark is an exponent. -/
def isExponent (text : List Char) : Bool :=
  (readSpacedDigits? isDigit (splitSign text).2).isSome

/-- The text is a real number: digits with a fraction, an exponent or both, or one
of the names `inf` and `nan`, each with an optional sign. -/
def isReal (text : List Char) : Bool :=
  let text := (splitSign text).2
  let (mantissa, exponent) :=
    match text.span fun c => c != 'e' && c != 'E' with
    | (mantissa, _ :: exponent) => (mantissa, some exponent)
    | (mantissa, []) => (mantissa, none)
  let mantissaIsReal := match splitAtFirst? '.' mantissa with
    | some (whole, fraction) =>
        (readDecimal? whole).isSome && (readSpacedDigits? isDigit fraction).isSome
    | none => (readDecimal? mantissa).isSome && exponent.isSome
  text == ['i', 'n', 'f'] || text == ['n', 'a', 'n'] ||
    (mantissaIsReal && exponent.all isExponent)

/-- A number of exactly `count` digits within bounds. -/
def isNumberWithin (count least greatest : Nat) (text : List Char) : Bool :=
  text.length == count &&
    match readNat? text with
    | some n => least ≤ n && n ≤ greatest
    | none => false

/-- The text is a date, such as `2024-02-29`. -/
def isDate (text : List Char) : Bool :=
  match text.splitOn '-' with
  | [year, month, day] =>
      isNumberWithin 4 0 9999 year && isNumberWithin 2 1 12 month &&
        isNumberWithin 2 1 (daysInMonth (digitsValue year) (digitsValue month)) day
  | _ => false

/-- The text is a time of day, such as `23:59:60.5`. -/
def isTime (text : List Char) : Bool :=
  match text.splitOn ':' with
  | [hour, minute, second] =>
      let (second, fraction) := match splitAtFirst? '.' second with
        | some (second, fraction) => (second, some fraction)
        | none => (second, none)
      isNumberWithin 2 0 23 hour && isNumberWithin 2 0 59 minute &&
        isNumberWithin 2 0 60 second &&
        fraction.all fun digits => !digits.isEmpty && digits.all isDigit
  | _ => false

/-- The text is a distance from universal time, such as `+01:00`, without its
sign. -/
def isOffset (text : List Char) : Bool :=
  match text.splitOn ':' with
  | [hour, minute] => isNumberWithin 2 0 23 hour && isNumberWithin 2 0 59 minute
  | _ => false

/-- The text is a time of day with an optional offset. -/
def isTimeWithOffset (text : List Char) : Bool :=
  isTime text ||
    match text.reverse with
    | 'Z' :: front | 'z' :: front => isTime front.reverse
    | _ =>
        let (time, offset) := text.span fun c => c != '+' && c != '-'
        isTime time && !offset.isEmpty && isOffset (offset.drop 1)

/-- The text is a date, a time, or both. -/
def isDateOrTime (text : List Char) : Bool :=
  isDate text || isTime text ||
    (isDate (text.take 10) &&
      match text.drop 10 with
      | 'T' :: time | 't' :: time | ' ' :: time => isTimeWithOffset time
      | _ => false)

/-- A character of a scalar without quotes. -/
def isBareScalarChar (c : Char) : Bool :=
  c.isAlphanum || c == '_' || c == '+' || c == '-' || c == '.' || c == ':'

/-- The scalar without quotes at the front.  A time may follow its date after one
space. -/
def spanBareScalar (text : List Char) : List Char × List Char :=
  match text.span isBareScalarChar with
  | (scalar, ' ' :: rest) =>
      if isDate scalar ∧ (rest.head?.any isDigit) then
        let (time, rest) := rest.span isBareScalarChar
        (scalar ++ ' ' :: time, rest)
      else (scalar, ' ' :: rest)
  | parts => parts

/-- A date or time stands as a table with one entry that no record knows. -/
def dateOrTime : Value := .table [("", .opaqueContent)]

/-- A truth value, number, date or time. -/
def readBareScalar? (text : List Char) : Option (Value × List Char) :=
  let (scalar, rest) := spanBareScalar text
  let value? : Option Value :=
    if scalar = ['t', 'r', 'u', 'e'] then some (.bool true)
    else if scalar = ['f', 'a', 'l', 's', 'e'] then some (.bool false)
    else
      match readInteger? scalar with
      | some n => some (.int n)
      | none =>
          if isReal scalar then some .opaqueContent
          else if isDateOrTime scalar then some dateOrTime
          else none
  value?.map (·, rest)

end PipelineUpkeep.Data.Toml

import PipelineUpkeep.Data.Value
import PipelineUpkeep.Text.Hexadecimal
/-!
# Reading JSON

Strict JSON.  Integers from -2⁶³ to 2⁶⁴ - 1 are exact, but for negative zero;
other numbers and texts with an unpaired surrogate are kept as contents that
cannot be read further.  Nothing but blanks may follow the value.
-/

namespace PipelineUpkeep.Data.Json

open Text

/-- Drop the blanks of JSON. -/
def skipBlanks (text : List Char) : List Char :=
  text.dropWhile fun c => c == ' ' || c == '\n' || c == '\t' || c == '\r'

/-- The character of a surrogate pair. -/
def pairedChar (high low : Nat) : Char :=
  Char.ofNat (0x10000 + (high - 0xD800) * 0x400 + (low - 0xDC00))

/-- The character of an escape sequence after its backslash; `none` inside for an
unpaired surrogate. -/
def readEscape? : List Char → Option (Option Char × List Char)
  | '"' :: rest => some (some '"', rest)
  | '\\' :: rest => some (some '\\', rest)
  | '/' :: rest => some (some '/', rest)
  | 'b' :: rest => some (some '\x08', rest)
  | 'f' :: rest => some (some '\x0c', rest)
  | 'n' :: rest => some (some '\n', rest)
  | 'r' :: rest => some (some '\r', rest)
  | 't' :: rest => some (some '\t', rest)
  | 'u' :: rest => do
      let (unit, rest) ← readHexDigits? 4 rest
      if unit < 0xD800 ∨ 0xDFFF < unit then some (some (Char.ofNat unit), rest)
      else
        match rest with
        -- One half of a pair; the other half has to be an escape sequence as well.
        | '\\' :: 'u' :: more =>
            match readHexDigits? 4 more with
            | some (low, more) =>
                if unit < 0xDC00 ∧ 0xDC00 ≤ low ∧ low ≤ 0xDFFF then
                  some (some (pairedChar unit low), more)
                else some (none, rest)
            | none => none
        | _ => some (none, rest)
  | _ => none

/-- The characters of a text after its opening quote, and what follows the
closing one.  The text is `none` if it holds an unpaired surrogate. -/
def readText? : Nat → List Char → Option (Option (List Char) × List Char)
  | 0, _ => none
  | fuel + 1, text =>
      match text with
      | [] => none
      | '"' :: rest => some (some [], rest)
      | '\\' :: rest => do
          let (c, rest) ← readEscape? rest
          let (more, rest) ← readText? fuel rest
          some (c.bind fun c => more.map (c :: ·), rest)
      | c :: rest =>
          if c.toNat < 0x20 then none
          else do
            let (more, rest) ← readText? fuel rest
            some (more.map (c :: ·), rest)

/-- The fraction and exponent of a number are well formed; gives the rest and
whether there is either. -/
def readFractionAndExponent? (text : List Char) : Option (Bool × List Char) := do
  let (hasFraction, text) ← match text with
    | '.' :: rest =>
        let (digits, rest) := spanDigits rest
        if digits.isEmpty then none else some (true, rest)
    | text => some (false, text)
  match text with
  | 'e' :: rest | 'E' :: rest =>
      let rest := match rest with
        | '+' :: rest | '-' :: rest => rest
        | rest => rest
      let (digits, rest) := spanDigits rest
      if digits.isEmpty then none else some (true, rest)
  | text => some (hasFraction, text)

/-- A number that starts with a digit or a minus sign. -/
def readNumber? (text : List Char) : Option (Value × List Char) := do
  let (negative, text) := match text with
    | '-' :: rest => (true, rest)
    | text => (false, text)
  let (digits, text) := spanDigits text
  match digits with
  | [] => none
  | '0' :: _ :: _ => none
  | _ =>
      let (isReal, rest) ← readFractionAndExponent? text
      let n := digitsValue digits
      if isReal then some (.opaqueContent, rest)
      else if negative then
        -- Negative zero is not an integer.
        some (if 0 < n ∧ n ≤ bound63 then .int (-(n : Int)) else .opaqueContent, rest)
      else some (if n < bound64 then .int n else .opaqueContent, rest)

mutual

/-- A value at the front of a text. -/
def readValue? : Nat → List Char → Option (Value × List Char)
  | 0, _ => none
  | fuel + 1, text =>
      match skipBlanks text with
      | 'n' :: 'u' :: 'l' :: 'l' :: rest => some (.null, rest)
      | 't' :: 'r' :: 'u' :: 'e' :: rest => some (.bool true, rest)
      | 'f' :: 'a' :: 'l' :: 's' :: 'e' :: rest => some (.bool false, rest)
      | '"' :: rest => do
          let (content, rest) ← readText? fuel rest
          match content with
          | some content => some (.text (String.ofList content), rest)
          | none => some (.opaqueContent, rest)
      | '[' :: rest =>
          match skipBlanks rest with
          | ']' :: rest => some (.list [], rest)
          | rest => do
              let (items, rest) ← readItems? fuel rest
              some (.list items, rest)
      | '\x7b' :: rest =>
          match skipBlanks rest with
          | '\x7d' :: rest => some (.table [], rest)
          | rest => do
              let (entries, rest) ← readEntries? fuel rest
              some (.table entries, rest)
      | text => readNumber? text

/-- The items of a list up to its closing bracket. -/
def readItems? : Nat → List Char → Option (List Value × List Char)
  | 0, _ => none
  | fuel + 1, text => do
      let (item, rest) ← readValue? fuel text
      match skipBlanks rest with
      | ',' :: rest =>
          let (items, rest) ← readItems? fuel rest
          some (item :: items, rest)
      | ']' :: rest => some ([item], rest)
      | _ => none

/-- The entries of a table up to its closing brace. -/
def readEntries? : Nat → List Char → Option (List (String × Value) × List Char)
  | 0, _ => none
  | fuel + 1, text =>
      match skipBlanks text with
      | '"' :: rest => do
          let (key, rest) ← readText? fuel rest
          let key ← key
          match skipBlanks rest with
          | ':' :: rest =>
              let (value, rest) ← readValue? fuel rest
              match skipBlanks rest with
              | ',' :: rest =>
                  let (entries, rest) ← readEntries? fuel rest
                  some ((String.ofList key, value) :: entries, rest)
              | '\x7d' :: rest => some ([(String.ofList key, value)], rest)
              | _ => none
          | _ => none
      | _ => none

end

/-- Read a whole text.  Of two calls in a row at least one has read a character, so
twice the length of the text bounds the calls, and what is left of this bound always
covers what is left of the text. -/
def read? (text : String) : Option Value :=
  let chars := text.toList
  match readValue? (2 * chars.length + 2) chars with
  | some (value, rest) => if (skipBlanks rest).isEmpty then some value else none
  | none => none

end PipelineUpkeep.Data.Json

import PipelineUpkeep.Data.Value
import PipelineUpkeep.Text.Hexadecimal
/-!
# Writing JSON

Compact, on one line without blanks, or indented by two spaces with one item a
line.  Only the quote, the backslash and the control characters below U+0020 are
escaped.  A scalar without quotes is written as a text.
-/

namespace PipelineUpkeep.Data.Json

open Text

/-- A character inside a quoted text. -/
def escapeChar (c : Char) : List Char :=
  match c with
  | '"' => ['\\', '"']
  | '\\' => ['\\', '\\']
  | '\x08' => ['\\', 'b']
  | '\x0c' => ['\\', 'f']
  | '\n' => ['\\', 'n']
  | '\r' => ['\\', 'r']
  | '\t' => ['\\', 't']
  | c =>
      if c.toNat < 0x20 then
        ['\\', 'u', '0', '0', lowerHexDigit (c.toNat / 16), lowerHexDigit (c.toNat % 16)]
      else [c]

/-- A text in quotes. -/
def quote (text : String) : List Char :=
  '"' :: text.toList.flatMap escapeChar ++ ['"']

mutual

/-- A value on one line. -/
def compactChars : Value → List Char
  | .null | .opaqueContent => ['n', 'u', 'l', 'l']
  | .bool true => ['t', 'r', 'u', 'e']
  | .bool false => ['f', 'a', 'l', 's', 'e']
  | .int n => intDigits n
  | .text text | .plain text => quote text
  | .list items => '[' :: [','].intercalate (compactItems items) ++ [']']
  | .table entries => '\x7b' :: [','].intercalate (compactEntries entries) ++ ['\x7d']

def compactItems : List Value → List (List Char)
  | [] => []
  | item :: items => compactChars item :: compactItems items

def compactEntries : List (String × Value) → List (List Char)
  | [] => []
  | (key, value) :: entries =>
      (quote key ++ ':' :: compactChars value) :: compactEntries entries

end

/-- A line break and the indentation of a level. -/
def lineBreak (level : Nat) : List Char :=
  '\n' :: List.replicate (2 * level) ' '

mutual

/-- A value with one item a line, at a level of indentation. -/
def prettyChars (level : Nat) : Value → List Char
  | .list [] => ['[', ']']
  | .table [] => ['\x7b', '\x7d']
  | .list items =>
      '[' :: [','].intercalate (prettyItems (level + 1) items) ++ lineBreak level ++ [']']
  | .table entries =>
      '\x7b' :: [','].intercalate (prettyEntries (level + 1) entries) ++ lineBreak level ++ ['\x7d']
  | value => compactChars value

def prettyItems (level : Nat) : List Value → List (List Char)
  | [] => []
  | item :: items => (lineBreak level ++ prettyChars level item) :: prettyItems level items

def prettyEntries (level : Nat) : List (String × Value) → List (List Char)
  | [] => []
  | (key, value) :: entries =>
      (lineBreak level ++ quote key ++ ':' :: ' ' :: prettyChars level value) ::
        prettyEntries level entries

end

/-- A value on one line. -/
def compact (value : Value) : String :=
  String.ofList (compactChars value)

/-- A value with one item a line. -/
def pretty (value : Value) : String :=
  String.ofList (prettyChars 0 value)

end PipelineUpkeep.Data.Json

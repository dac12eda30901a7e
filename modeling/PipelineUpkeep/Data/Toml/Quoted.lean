import PipelineUpkeep.Text.Hexadecimal
/-!
# Texts of TOML in quotes

A text is written in the first of these forms that can hold it: double quotes
without escapes; single quotes; three double quotes with no backslash; three
single quotes; at last with escapes, in three double quotes if it has line
breaks.  Tabs count as plain characters, but are escaped in double quotes.  With
three quotes a text that has line breaks starts on a line of its own.
-/

namespace PipelineUpkeep.Data.Toml

open Text

/-- A control character that only an escape sequence can hold. -/
def needsEscape (c : Char) : Bool :=
  (c.toNat < 0x20 || c.toNat == 0x7F) && c != '\t' && c != '\n'

/-- The length of the longest run of a character, where `run` is the length of the
run that ends before the text. -/
def longestRunFrom (quote : Char) (run : Nat) : List Char → Nat
  | [] => run
  | c :: rest =>
      if c = quote then longestRunFrom quote (run + 1) rest
      else max run (longestRunFrom quote 0 rest)

/-- The length of the longest run of a character. -/
def longestRun (quote : Char) (text : List Char) : Nat :=
  longestRunFrom quote 0 text

/-- A character of a text in double quotes, other than a quote or a line break. -/
def escapeControl (c : Char) : List Char :=
  match c with
  | '\x08' => ['\\', 'b']
  | '\t' => ['\\', 't']
  | '\x0c' => ['\\', 'f']
  | '\r' => ['\\', 'r']
  | '\\' => ['\\', '\\']
  | c => if needsEscape c then '\\' :: 'u' :: upperHexDigits 4 c.toNat else [c]

/-- A text in double quotes without them.  Up to `spare` quotes in a row stand as
they are; `run` of them have just been written. -/
def escapeBasic (manyLines : Bool) (spare : Nat) (run : Nat) : List Char → List Char
  | [] => []
  | c :: rest =>
      if c = '"' then
        if run < spare then '"' :: escapeBasic manyLines spare (run + 1) rest
        else '\\' :: '"' :: escapeBasic manyLines spare 0 rest
      else if c = '\n' then
        (if manyLines then ['\n'] else ['\\', 'n']) ++ escapeBasic manyLines spare 0 rest
      else escapeControl c ++ escapeBasic manyLines spare 0 rest

/-- A text with its quotes. -/
def quote (text : List Char) : List Char :=
  let hasControl := text.any needsEscape
  let hasBackslash := text.contains '\\'
  let hasLineBreak := text.contains '\n'
  let singles := longestRun '\'' text
  let doubles := longestRun '"' text
  let opening := if hasLineBreak then ['\n'] else []
  let basic := '"' :: escapeBasic false 0 0 text ++ ['"']
  let basicLines :=
    ['"', '"', '"'] ++ opening ++ escapeBasic true 2 0 text ++ ['"', '"', '"']
  if !hasControl && !hasBackslash && !hasLineBreak && doubles == 0 then basic
  else if !hasControl && !hasLineBreak && singles == 0 then '\'' :: text ++ ['\'']
  else if !hasControl && !hasBackslash && doubles ≤ 2 then basicLines
  else if !hasControl && singles ≤ 2 then
    ['\'', '\'', '\''] ++ opening ++ text ++ ['\'', '\'', '\'']
  else if hasLineBreak then basicLines
  else basic

end PipelineUpkeep.Data.Toml

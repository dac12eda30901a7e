import PipelineUpkeep.Data.Toml.Quoted
import PipelineUpkeep.Data.Value
/-!
# Writing TOML

Of every table first the entries that are no tables, then its tables and lists of
tables, each under a header of its own after an empty line.  A table that holds
tables only has no header.  Null entries are left out.  A list of two or more
items has one item a line.  Integers beyond 64 bits with a sign cannot be
written, nor can lists that mix tables with other values.
-/

namespace PipelineUpkeep.Data.Toml

open Text

/-- An integer, if it fits into 64 bits with a sign. -/
def intChars? (n : Int) : Option (List Char) :=
  if -(bound63 : Int) ≤ n ∧ n < bound63 then
    some (intDigits n)
  else none

/-- A list: on one line if it has at most one item. -/
def listChars (items : List (List Char)) : List Char :=
  match items with
  | [] => ['[', ']']
  | [item] => '[' :: item ++ [']']
  | items => '[' :: items.flatMap (fun item => "\n    ".toList ++ item ++ [',']) ++ ['\n', ']']

mutual

/-- A value on the line of its key. -/
def inlineChars? : Value → Option (List Char)
  | .bool true => some ['t', 'r', 'u', 'e']
  | .bool false => some ['f', 'a', 'l', 's', 'e']
  | .int n => intChars? n
  | .text text | .plain text => some (quote text.toList)
  | .list items => (inlineItems? items).map listChars
  | .null | .opaqueContent | .table _ => none

def inlineItems? : List Value → Option (List (List Char))
  | [] => some []
  | item :: items => do
      let item ← inlineChars? item
      some (item :: (← inlineItems? items))

end

def isTable : Value → Bool
  | .table _ => true
  | _ => false

/-- The value is written under headers: a table, or a list of tables that is not
empty. -/
def hasHeader : Value → Bool
  | .table _ => true
  | .list items => !items.isEmpty && items.all isTable
  | _ => false

/-- The lines of the entries that are no tables. -/
def lines? : List (String × Value) → Option (List Char)
  | [] => some []
  | (key, value) :: entries => do
      let rest ← lines? entries
      if hasHeader value then some rest
      else
        let line ← inlineChars? value
        some (key.toList ++ [' ', '=', ' '] ++ line ++ '\n' :: rest)

/-- The header of a table, or of an item of a list of tables. -/
def header (isItem : Bool) (path : List String) : List Char :=
  let path := ['.'].intercalate (path.map String.toList)
  if isItem then ['[', '['] ++ path ++ [']', ']', '\n'] else '[' :: path ++ [']', '\n']

/-- The block of a table itself, if it has one.  The whole document has no
header. -/
def ownBlock (isItem : Bool) (path : List String) (isEmpty : Bool) (lines : List Char) :
    List (List Char) :=
  if path.isEmpty then if lines.isEmpty then [] else [lines]
  else if isItem || isEmpty || !lines.isEmpty then [header isItem path ++ lines]
  else []

mutual

/-- The blocks of a table and of the tables in it. -/
def blocks? (isItem : Bool) (path : List String) : Value → Option (List (List Char))
  | .table entries => do
      let lines ← lines? (Value.presentEntries entries)
      let inner ← entryBlocks? path entries
      some (ownBlock isItem path (Value.presentEntries entries).isEmpty lines ++ inner)
  | _ => none

/-- The blocks of the entries that are tables. -/
def entryBlocks? (path : List String) : List (String × Value) → Option (List (List Char))
  | [] => some []
  | (key, value) :: entries => do
      let rest ← entryBlocks? path entries
      let own ← match value with
        | .table inner => blocks? false (path ++ [key]) (.table inner)
        | .list items =>
            if hasHeader (.list items) then itemBlocks? (path ++ [key]) items else some []
        | _ => some []
      some (own ++ rest)

/-- The blocks of a list of tables. -/
def itemBlocks? (path : List String) : List Value → Option (List (List Char))
  | [] => some []
  | item :: items => do
      let own ← blocks? true path item
      some (own ++ (← itemBlocks? path items))

end

/-- Write a whole document. -/
def write? (value : Value) : Option String :=
  (blocks? false [] value).map fun blocks => String.ofList (['\n'].intercalate blocks)

end PipelineUpkeep.Data.Toml

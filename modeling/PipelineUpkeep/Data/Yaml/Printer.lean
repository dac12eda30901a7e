import PipelineUpkeep.Data.Value
import PipelineUpkeep.Data.Yaml.Style
/-!
# Writing YAML

Block style with two spaces of indentation.  A list stands in the column of its
key, and the entries of a table in a list start on the line of the item's dash.
Empty collections are written with brackets or braces, and an absent value as
`null`.
-/

namespace PipelineUpkeep.Data.Yaml

open Text

def spaces (count : Nat) : List Char :=
  List.replicate count ' '

mutual

/-- What stands after the colon of a key in the column `column`. -/
def valueChars (column : Nat) : Value → List Char
  | .list [] => [' ', '[', ']', '\n']
  | .table [] => [' ', '\x7b', '\x7d', '\n']
  | .list items => '\n' :: spaces column ++ itemsChars column items
  | .table entries => '\n' :: spaces (column + 2) ++ entriesChars (column + 2) entries
  | .null | .opaqueContent => [' ', 'n', 'u', 'l', 'l', '\n']
  | .bool true => [' ', 't', 'r', 'u', 'e', '\n']
  | .bool false => [' ', 'f', 'a', 'l', 's', 'e', '\n']
  | .int n => ' ' :: intDigits n ++ ['\n']
  | .text text | .plain text => ' ' :: textChars (column + 2) text.toList

/-- What stands after the dash of an item in the column `column`. -/
def itemChars (column : Nat) : Value → List Char
  | .list (item :: items) => ' ' :: itemsChars (column + 2) (item :: items)
  | .table (entry :: entries) => ' ' :: entriesChars (column + 2) (entry :: entries)
  | value => valueChars column value

/-- The items of a list in the column `column`, at which the first one starts. -/
def itemsChars (column : Nat) : List Value → List Char
  | [] => []
  | [item] => '-' :: itemChars column item
  | item :: items => '-' :: itemChars column item ++ spaces column ++ itemsChars column items

/-- The entries of a table in the column `column`, at which the first one starts. -/
def entriesChars (column : Nat) : List (String × Value) → List Char
  | [] => []
  | [(key, value)] => key.toList ++ ':' :: valueChars column value
  | (key, value) :: entries =>
      key.toList ++ ':' :: valueChars column value ++ spaces column ++
        entriesChars column entries

end

/-- Write a table as a whole document. -/
def write (value : Value) : String :=
  match value with
  | .table (entry :: entries) => String.ofList (entriesChars 0 (entry :: entries))
  | value => String.ofList ((valueChars 0 value).drop 1)

end PipelineUpkeep.Data.Yaml

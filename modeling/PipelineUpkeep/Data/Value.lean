/-!
# Values of data files

One tree for the three file formats.  A table keeps the order of its entries and
repeated keys; integers are exact.  A YAML scalar without quotes is `plain`: what
reads it decides whether it is a text, a number, a truth value or nothing.
Contents that no field accepts, but that may stand where nothing is read, are
`opaqueContent`.
-/

namespace PipelineUpkeep.Data

inductive Value where
  | null
  | bool (value : Bool)
  | int (value : Int)
  | text (value : String)
  /-- A scalar whose type is left to its reader. -/
  | plain (value : String)
  /-- A number that is not an integer, or a text that is not Unicode. -/
  | opaqueContent
  | list (items : List Value)
  | table (entries : List (String × Value))
  deriving Repr, Inhabited

namespace Value

/-- A natural number. -/
def nat (n : Nat) : Value := int n

/-- A value that may be absent. -/
def ofOption {α : Type} (encode : α → Value) : Option α → Value
  | none => null
  | some value => encode value

/-- Several values of one kind. -/
def ofList {α : Type} (encode : α → Value) (items : List α) : Value :=
  list (items.map encode)

/-- A list without items. -/
def isEmptyList : Value → Bool
  | list [] => true
  | _ => false

/-- The entries of a table, but for those that are null. -/
def presentEntries (entries : List (String × Value)) : List (String × Value) :=
  entries.filter fun entry => match entry.2 with
    | null => false
    | _ => true

end Value

/-- The file formats. -/
inductive Format where
  | json
  | toml
  | yaml
  deriving DecidableEq, Repr, Inhabited

/-- The name used in messages. -/
def Format.name : Format → String
  | json => "JSON"
  | toml => "TOML"
  | yaml => "YAML"

/-- The format that the extension of a file's name says. -/
def Format.ofExtension? : String → Option Format
  | "toml" => some toml
  | "json" => some json
  | "yaml" => some yaml
  | "yml" => some yaml
  | _ => none

end PipelineUpkeep.Data

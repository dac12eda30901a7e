import PipelineUpkeep.Data.Value
import PipelineUpkeep.Text.Hexadecimal
/-!
# Reading fields from values

A decoder reads a typed value or fails.  A record is given as a table, in which
unknown keys are passed over and a known key must not be repeated, or as a list
of its fields in order.  The formats differ in a few shapes, so every decoder
knows the format: YAML scalars without quotes have no type of their own, and an
empty one stands for an empty list or record; TOML allows more items than a
record has fields.
-/

namespace PipelineUpkeep.Data

open Text

/-- Reads an `α` from a value of a file in some format. -/
abbrev Decoder (α : Type) := Format → Value → Option α

namespace Decode

/-- The value of a numeral of one or more digits of the given base. -/
def readBase? (base : Nat) (text : List Char) : Option Nat :=
  if text.isEmpty then none else valueInBase? base text

/-- The number that a scalar without quotes denotes, if it denotes a natural
number: decimal without leading zeros, or with one of the marks `0x`, `0o` and
`0b`.  A plus sign may stand in front; a minus sign only before zero. -/
def plainNat? (text : List Char) : Option Nat :=
  let magnitude? (digits : List Char) : Option Nat :=
    match digits with
    | '0' :: 'x' :: rest => readBase? 16 rest
    | '0' :: 'o' :: rest => readBase? 8 rest
    | '0' :: 'b' :: rest => readBase? 2 rest
    | '0' :: _ :: _ => none
    | digits => readBase? 10 digits
  match text with
  | '+' :: rest => magnitude? rest
  | '-' :: rest => (magnitude? rest).filter (· == 0)
  | text => magnitude? text

/-- The truth value that a scalar without quotes denotes. -/
def plainBool? (text : String) : Option Bool :=
  if ["true", "True", "TRUE"].contains text then some true
  else if ["false", "False", "FALSE"].contains text then some false
  else none

/-- The scalar without quotes stands for nothing. -/
def isPlainNull (text : String) : Bool :=
  ["", "~", "null", "Null", "NULL"].contains text

/-- A natural number below a bound. -/
def natBelow (bound : Nat) : Decoder Nat
  | _, .int (.ofNat n) => if n < bound then some n else none
  | _, .plain text => (plainNat? text.toList).filter (· < bound)
  | _, _ => none

def bool : Decoder Bool
  | _, .bool value => some value
  | _, .plain text => plainBool? text
  | _, _ => none

def string : Decoder String
  | _, .text value => some value
  | _, .plain text => some text
  | _, _ => none

/-- A value that may be null. -/
def option {α : Type} (decode : Decoder α) : Decoder (Option α)
  | _, .null => some none
  | format, .plain text =>
      if isPlainNull text then some none else (decode format (.plain text)).map some
  | format, value => (decode format value).map some

def list {α : Type} (decode : Decoder α) : Decoder (List α)
  | format, .list items => items.mapM (decode format)
  | _, .plain "" => some []
  | _, _ => none

/-- The value stands for nothing beside the name of a choice. -/
def isEmptyPayload : Format → Value → Bool
  | .json, .null => true
  | .toml, .table [] => true
  | .toml, .list [] => true
  | _, _ => false

/-- A choice given by its name, or as a table from the name to nothing. -/
def choice {α : Type} (ofName? : String → Option α) : Decoder α
  | _, .text name => ofName? name
  | _, .plain name => ofName? name
  | format, .table [(name, payload)] =>
      if isEmptyPayload format payload then ofName? name else none
  | _, _ => none

/-- A text that is read further. -/
def parsed {α : Type} (read? : String → Option α) : Decoder α := fun format value =>
  (string format value).bind read?

/-- The fields of a record in the order of `names`; a field that is not given is
`none`. -/
def fields (names : List String) : Decoder (List (Option Value))
  | _, .table entries =>
      names.mapM fun name =>
        match entries.filter (·.1 == name) with
        | [] => some none
        | [(_, value)] => some (some value)
        | _ => none
  | format, .list items =>
      -- Fields at the end may be left out.
      if format = .toml ∨ items.length ≤ names.length then
        some ((List.range names.length).map (items[·]?))
      else none
  | _, .plain "" => some (names.map fun _ => none)
  | _, _ => none

/-- A field that must be given. -/
def required {α : Type} (decode : Decoder α) (format : Format) (field : Option Value) :
    Option α :=
  field.bind (decode format)

/-- A field that has a default. -/
def optional {α : Type} (default : α) (decode : Decoder α) (format : Format)
    (field : Option Value) : Option α :=
  match field with
  | none => some default
  | some value => decode format value

end Decode

end PipelineUpkeep.Data

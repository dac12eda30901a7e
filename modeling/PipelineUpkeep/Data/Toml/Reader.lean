import PipelineUpkeep.Data.Toml.Outline
import PipelineUpkeep.Data.Toml.Scalar
/-!
# Reading TOML

A document is a sequence of lines: headers of tables, keys with their values,
comments and empty lines.  A value may reach over several lines only in a list or
in a text with three quotes.  One byte order mark may stand in front.
-/

namespace PipelineUpkeep.Data.Toml

open Text

/-- A character of a key without quotes. -/
def isBareKeyChar (c : Char) : Bool :=
  c.isAlphanum || c == '_' || c == '-'

/-- One part of a key; `size` bounds its length. -/
def readKeyPart? (size : Nat) : List Char → Option (String × List Char)
  | '"' :: rest =>
      (readBasic? size rest).map fun (name, rest) => (String.ofList name, rest)
  | '\'' :: rest =>
      (readLiteral? rest).map fun (name, rest) => (String.ofList name, rest)
  | text =>
      let (name, rest) := text.span isBareKeyChar
      if name.isEmpty then none else some (String.ofList name, rest)

/-- A key of one or more parts with points between them. -/
def readKey? : Nat → List Char → Option (Key × List Char)
  | 0, _ => none
  | fuel + 1, text => do
      let (name, rest) ← readKeyPart? fuel text
      match skipSpaces rest with
      | '.' :: more => do
          let (key, rest) ← readKey? fuel (skipSpaces more)
          some (⟨name :: key.path, key.name⟩, rest)
      | _ => some (⟨[], name⟩, rest)

/-- Drop blanks, comments and line breaks inside a list. -/
def skipInList : Nat → List Char → List Char
  | 0, text => text
  | fuel + 1, text =>
      let text := skipSpaces text
      match readLineBreak? (skipComment text) with
      | some rest => skipInList fuel rest
      | none => text

mutual

/-- A value at the front of a text. -/
def readValue? : Nat → List Char → Option (Value × List Char)
  | 0, _ => none
  | fuel + 1, text =>
      match text with
      | '[' :: rest => do
          let (items, rest) ← readItems? fuel (skipInList fuel rest)
          some (.list items, rest)
      | '\x7b' :: rest =>
          match skipSpaces rest with
          | '\x7d' :: rest => some (.table [], rest)
          | rest => do
              let (entries, rest) ← readInline? fuel [] rest
              some (.table (entriesToValues entries), rest)
      | text =>
          match readQuoted? fuel text with
          | some (content, rest) => some (.text (String.ofList content), rest)
          | none => readBareScalar? text

/-- The items of a list up to its closing bracket; a comma may stand before it. -/
def readItems? : Nat → List Char → Option (List Value × List Char)
  | 0, _ => none
  | fuel + 1, text =>
      match text with
      | ']' :: rest => some ([], rest)
      | text => do
          let (item, rest) ← readValue? fuel text
          match skipInList fuel rest with
          | ',' :: rest => do
              let (items, rest) ← readItems? fuel (skipInList fuel rest)
              some (item :: items, rest)
          | ']' :: rest => some ([item], rest)
          | _ => none

/-- The entries of a table in braces on one line, added to those before them. -/
def readInline? : Nat → Entries → List Char → Option (Entries × List Char)
  | 0, _, _ => none
  | fuel + 1, entries, text => do
      let (key, rest) ← readKey? fuel (skipSpaces text)
      match skipSpaces rest with
      | '=' :: rest => do
          let (value, rest) ← readValue? fuel (skipSpaces rest)
          let entries ← addValue? key value entries
          match skipSpaces rest with
          | ',' :: rest => readInline? fuel entries rest
          | '\x7d' :: rest => some (entries, rest)
          | _ => none
      | _ => none

end

/-- What a document holds so far, and the path of the table that is open. -/
structure Document where
  root : Entries := []
  openPath : List String := []

/-- A header after its first bracket; `size` bounds what is left of the document. -/
def readHeader? (size : Nat) (document : Document) (text : List Char) :
    Option (Document × List Char) :=
  match text with
  | '[' :: text => do
      let (key, rest) ← readKey? size (skipSpaces text)
      match skipSpaces rest with
      | ']' :: ']' :: rest => do
          some (⟨← openItem? key document.root, key.path ++ [key.name]⟩, rest)
      | _ => none
  | text => do
      let (key, rest) ← readKey? size (skipSpaces text)
      match skipSpaces rest with
      | ']' :: rest => do
          some (⟨← openTable? key document.root, key.path ++ [key.name]⟩, rest)
      | _ => none

/-- A key with its value. -/
def readEntry? (size : Nat) (document : Document) (text : List Char) :
    Option (Document × List Char) := do
  let (key, rest) ← readKey? size text
  match skipSpaces rest with
  | '=' :: rest => do
      -- Of two nested calls at least one has read a character.
      let (value, rest) ← readValue? (2 * size + 2) (skipSpaces rest)
      let root ← addValueAt? document.openPath key value document.root
      some (⟨root, document.openPath⟩, rest)
  | _ => none

/-- What stands on a line before its comment. -/
def readLine? (size : Nat) (document : Document) (text : List Char) :
    Option (Document × List Char) :=
  match text with
  | [] => some (document, [])
  | '#' :: _ => some (document, text)
  | '[' :: rest => readHeader? size document rest
  | c :: _ =>
      if c = '\n' ∨ c = '\r' then some (document, text) else readEntry? size document text

/-- The remaining lines of a document. -/
def readDocument? : Nat → Document → List Char → Option Document
  | 0, _, _ => none
  | fuel + 1, document, text => do
      let (document, rest) ← readLine? (fuel + 1) document (skipSpaces text)
      let rest := skipComment (skipSpaces rest)
      match readLineBreak? rest with
      | some rest => readDocument? fuel document rest
      | none => if rest.isEmpty then some document else none

/-- Drop the byte order mark. -/
def skipByteOrderMark : List Char → List Char
  | '\uFEFF' :: rest => rest
  | text => text

/-- Read a whole document.  Every line takes a line break, so the length of the
text bounds the number of lines, and the bound always covers what is left. -/
def read? (text : String) : Option Value :=
  let chars := skipByteOrderMark text.toList
  (readDocument? (chars.length + 1) ⟨[], []⟩ chars).map fun document =>
    .table (entriesToValues document.root)

end PipelineUpkeep.Data.Toml

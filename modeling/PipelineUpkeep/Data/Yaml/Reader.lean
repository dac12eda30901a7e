import PipelineUpkeep.Data.Value
import PipelineUpkeep.Data.Yaml.Scalar
/-!
# Reading YAML

One document of a text: block and flow collections, scalars of every style,
anchors and aliases; tags are read and passed over.  Columns decide the block
structure: a collection in a block holds the entries that start in its own
column.  A text without a document is an empty scalar, and a second document is a
failure.

A key of a block mapping without a question mark stands on one line with its
colon, at a place where a key may stand: at the start of a line or after the mark
of an entry.
-/

namespace PipelineUpkeep.Data.Yaml

/-- A place, and the values that have been given a name. -/
structure Reading where
  place : Place
  anchors : List (String × Value)

def Reading.moveTo (reading : Reading) (place : Place) : Reading :=
  { reading with place }

/-- What is read where nothing is written. -/
def emptyScalar : Value := .plain ""

/-- A character of the name of an anchor. -/
def isAnchorChar (c : Char) : Bool :=
  c.isAlphanum || c == '-' || c == '_'

/-- The name of an anchor or alias after its mark. -/
def readAnchorName? (place : Place) : Option (String × Place) :=
  let name := place.rest.takeWhile isAnchorChar
  let after := place.skip name.length
  let ends := startsBlank after.rest ||
    after.rest.head?.any fun c => "?:,]\x7d%@\x60".toList.contains c
  if name.isEmpty || !ends then none else some (String.ofList name, after)

/-- The anchor and the tag at a place, in either order and on one line. -/
def readProperties? : Nat → Option String → Bool → Place → Option (Option String × Bool × Place)
  | 0, _, _, _ => none
  | fuel + 1, anchor, tagged, place =>
      match place.rest with
      | '&' :: _ =>
          if anchor.isSome then some (anchor, tagged, place)
          else do
            let (name, after) ← readAnchorName? (place.skip 1)
            readProperties? fuel (some name) tagged (after.skipWhile isSpaceOrTab)
      | '!' :: _ =>
          if tagged then some (anchor, tagged, place)
          else
            let after := place.skipWhile fun c => !isSpaceOrTab c && c != '\n'
            readProperties? fuel anchor true (after.skipWhile isSpaceOrTab)
      | _ => some (anchor, tagged, place)

/-- Give a value a name. -/
def Reading.define (reading : Reading) (anchor : Option String) (value : Value) : Reading :=
  match anchor with
  | none => reading
  | some name => { reading with anchors := (name, value) :: reading.anchors }

/-- The text of a key. -/
def keyText? : Value → Option String
  | .plain text | .text text => some text
  | _ => none

/-- An alias, a quoted text or a plain text. -/
def readScalar? (inFlow : Bool) (limit : Nat) (reading : Reading) : Option (Value × Reading) :=
  let place := reading.place
  let quoted (quote : Char) : Option (Value × Reading) :=
    (readQuoted? quote (place.size + 1) (place.skip 1)).map fun (content, after) =>
      (.text (String.ofList content), reading.moveTo after)
  match place.rest with
  | '*' :: _ => do
      let (name, after) ← readAnchorName? (place.skip 1)
      let (_, value) ← reading.anchors.find? (·.1 == name)
      some (value, reading.moveTo after)
  | '"' :: _ => quoted '"'
  | '\'' :: _ => quoted '\''
  | rest =>
      if startsPlain inFlow rest then
        (readPlain? inFlow limit place).map fun (content, after) =>
          (.plain (String.ofList content), reading.moveTo after)
      else none

mutual

/-- A node inside brackets or braces; nothing may be written for it. -/
def readFlowNode? (limit : Nat) : Nat → Reading → Option (Value × Reading)
  | 0, _ => none
  | fuel + 1, reading => do
      let (anchor, _, place) ← readProperties? 3 none false reading.place
      let place := place.toFlowContent
      let reading := reading.moveTo place
      let (value, reading) ← match place.rest with
        | '[' :: _ => do
            let (items, reading) ← readFlowItems? limit fuel (reading.moveTo (place.skip 1))
            some (.list items, reading)
        | '\x7b' :: _ => do
            let (entries, reading) ← readFlowEntries? limit fuel (reading.moveTo (place.skip 1))
            some (.table entries, reading)
        | ',' :: _ | ']' :: _ | '\x7d' :: _ | ':' :: _ =>
            if anchor.isSome then some (emptyScalar, reading) else none
        | _ => readScalar? true limit reading
      some (value, reading.define anchor value)

/-- The value after a colon inside brackets or braces. -/
def readFlowValue? (limit : Nat) : Nat → Reading → Option (Value × Reading)
  | 0, _ => none
  | fuel + 1, reading =>
      let reading := reading.moveTo (reading.place.skip 1).toFlowContent
      match reading.place.rest with
      | ',' :: _ | ']' :: _ | '\x7d' :: _ => some (emptyScalar, reading)
      | _ => readFlowNode? limit fuel reading

/-- The items of a list up to its closing bracket.  An item with a colon is a
table with one entry. -/
def readFlowItems? (limit : Nat) : Nat → Reading → Option (List Value × Reading)
  | 0, _ => none
  | fuel + 1, reading =>
      let start := reading.place.toFlowContent
      match start.rest with
      | ']' :: _ => some ([], reading.moveTo (start.skip 1))
      | _ => do
          let (first, reading) ← readFlowNode? limit fuel (reading.moveTo start)
          let place := reading.place.toFlowContent
          let (item, reading) ←
            if place.rest.head? = some ':' ∧ place.line = start.line then do
              let key ← keyText? first
              let (value, reading) ← readFlowValue? limit fuel (reading.moveTo place)
              some (.table [(key, value)], reading)
            else some (first, reading)
          let place := reading.place.toFlowContent
          match place.rest with
          | ',' :: _ => do
              let (items, reading) ← readFlowItems? limit fuel (reading.moveTo (place.skip 1))
              some (item :: items, reading)
          | ']' :: _ => some ([item], reading.moveTo (place.skip 1))
          | _ => none

/-- The entries of a table up to its closing brace. -/
def readFlowEntries? (limit : Nat) : Nat → Reading → Option (List (String × Value) × Reading)
  | 0, _ => none
  | fuel + 1, reading =>
      let start := reading.place.toFlowContent
      match start.rest with
      | '\x7d' :: _ => some ([], reading.moveTo (start.skip 1))
      | _ => do
          let (first, reading) ← readFlowNode? limit fuel (reading.moveTo start)
          let key ← keyText? first
          let place := reading.place.toFlowContent
          let (value, reading) ←
            if place.rest.head? = some ':' ∧ place.line = start.line then
              readFlowValue? limit fuel (reading.moveTo place)
            else some (emptyScalar, reading)
          let place := reading.place.toFlowContent
          match place.rest with
          | ',' :: _ => do
              let (entries, reading) ←
                readFlowEntries? limit fuel (reading.moveTo (place.skip 1))
              some ((key, value) :: entries, reading)
          | '\x7d' :: _ => some ([(key, value)], reading.moveTo (place.skip 1))
          | _ => none

end

/-- A node on one or more lines that is no block: a scalar or a flow collection. -/
def readInlineNode? (indent : Int) (reading : Reading) : Option (Value × Reading) :=
  let place := reading.place
  let limit := (indent + 1).toNat
  let fuel := 4 * place.size + 4
  match place.rest with
  | '[' :: _ | '\x7b' :: _ => readFlowNode? limit fuel reading
  | _ => readScalar? false limit reading

/-- After a node that started on `line`: the place of the colon that makes it a
key. -/
def colonAfter? (line : Nat) (place : Place) : Option Place :=
  let place := place.skipWhile isSpaceOrTab
  if place.line = line ∧ place.startsEntry ':' then some place else none

mutual

/-- A node of a block that stands in the column `indent`, with the place before the
blanks in front of it.  Nothing may be written for it.  `keyAllowed` says whether a
key may stand on the same line, and `isValue` whether the node is the value of a
mapping, so that the entries of a list may stand in the column of the mapping. -/
def readNode? (indent : Int) (keyAllowed isValue : Bool) :
    Nat → Reading → Option (Value × Reading)
  | 0, _ => none
  | fuel + 1, reading =>
      let (keyAllowed, start) := reading.place.toContent keyAllowed
      let reading := reading.moveTo start
      if start.atEnd then some (emptyScalar, reading)
      else if (start.column : Int) ≤ indent then
        -- Nothing is written here, unless a list stands in the column of its mapping.
        if isValue ∧ keyAllowed ∧ (start.column : Int) = indent ∧ start.startsEntry '-' then do
          let (items, reading) ← readItems? true start.column fuel reading
          some (.list items, reading)
        else some (emptyScalar, reading)
      else if start.startsEntry '-' then
        if keyAllowed then do
          let (items, reading) ← readItems? false start.column fuel reading
          some (.list items, reading)
        else none
      else if start.startsEntry '?' ∨ start.startsEntry ':' then
        if keyAllowed then do
          let (entries, reading) ← readEntries? start.column fuel reading
          some (.table entries, reading)
        else none
      else do
        let (anchor, tagged, place) ← readProperties? 3 none false start
        -- A name at the end of a line belongs to the node that starts on a later one.
        let named := anchor.isSome || tagged
        let afterName := reading.moveTo place
        if named ∧ (startsBlank place.rest ∨ place.rest.head? = some '#') then
          let (value, reading) ← readNode? indent false isValue fuel afterName
          some (value, reading.define anchor value)
        else
          match place.rest with
          | '|' :: _ => do
              let (content, after) ← readBlock? false indent (place.skip 1)
              let value := Value.text (String.ofList content)
              some (value, (reading.moveTo after).define anchor value)
          | '>' :: _ => do
              let (content, after) ← readBlock? true indent (place.skip 1)
              let value := Value.text (String.ofList content)
              some (value, (reading.moveTo after).define anchor value)
          | _ => do
              let (value, after) ← readInlineNode? indent afterName
              let after := after.define anchor value
              match colonAfter? start.line after.place with
              | some colon =>
                  if keyAllowed then do
                    let (entries, reading) ←
                      readEntry? start.column value fuel (after.moveTo colon)
                    some (.table entries, reading)
                  else none
              | none => some (value, after)
termination_by structural fuel => fuel

/-- The items of a list in a column, from the mark of the next item on.  A list in
the column of its mapping ends at anything else in that column. -/
def readItems? (inMapping : Bool) (column : Nat) : Nat → Reading → Option (List Value × Reading)
  | 0, _ => none
  | fuel + 1, reading => do
      let (item, reading) ← readNode? column true false fuel (reading.moveTo (reading.place.skip 1))
      let (_, place) := reading.place.toContent false
      let reading := reading.moveTo place
      if place.atEnd ∨ place.column < column then some ([item], reading)
      else if column < place.column then none
      else if place.startsEntry '-' then
        let (items, reading) ← readItems? inMapping column fuel reading
        some (item :: items, reading)
      else if inMapping then some ([item], reading)
      else none
termination_by structural fuel => fuel

/-- The entries of a mapping in a column, from the next key on. -/
def readEntries? (column : Nat) : Nat → Reading → Option (List (String × Value) × Reading)
  | 0, _ => none
  | fuel + 1, reading => do
      let start := reading.place
      if start.startsEntry '?' then
        let (first, reading) ←
          readNode? column true true fuel (reading.moveTo (start.skip 1))
        let (_, place) := reading.place.toContent false
        let key ← keyText? first
        if place.column = column ∧ place.startsEntry ':' then
          readValue? column key true fuel (reading.moveTo place)
        else readMore? column key emptyScalar fuel reading
      else if start.startsEntry ':' then readValue? column "" true fuel reading
      else
        let (anchor, _, place) ← readProperties? 3 none false start
        let (value, after) ← readInlineNode? column (reading.moveTo place)
        let colon ← colonAfter? start.line after.place
        readEntry? column value fuel ((after.define anchor value).moveTo colon)
termination_by structural fuel => fuel

/-- The entries of a mapping from the colon after a key on. -/
def readEntry? (column : Nat) (key : Value) :
    Nat → Reading → Option (List (String × Value) × Reading)
  | 0, _ => none
  | fuel + 1, reading => do
      readValue? column (← keyText? key) false fuel reading
termination_by structural fuel => fuel

/-- The entries of a mapping from the colon before a value on. -/
def readValue? (column : Nat) (key : String) (keyAllowed : Bool) :
    Nat → Reading → Option (List (String × Value) × Reading)
  | 0, _ => none
  | fuel + 1, reading => do
      let (value, reading) ←
        readNode? column keyAllowed true fuel (reading.moveTo (reading.place.skip 1))
      readMore? column key value fuel reading
termination_by structural fuel => fuel

/-- An entry of a mapping that has been read, and the entries after it. -/
def readMore? (column : Nat) (key : String) (value : Value) :
    Nat → Reading → Option (List (String × Value) × Reading)
  | 0, _ => none
  | fuel + 1, reading =>
      let (_, place) := reading.place.toContent false
      let reading := reading.moveTo place
      if place.atEnd ∨ place.column < column then some ([(key, value)], reading)
      else if column < place.column ∨ place.startsEntry '-' then none
      else do
        let (entries, reading) ← readEntries? column fuel reading
        some ((key, value) :: entries, reading)
termination_by structural fuel => fuel

end

/-- Pass over the directives at the start; gives whether there is one. -/
def skipDirectives? : Nat → Bool → Place → Option (Bool × Place)
  | 0, _, _ => none
  | fuel + 1, found, place =>
      let (_, place) := place.toContent true
      match place.rest with
      | '%' :: 'Y' :: 'A' :: 'M' :: 'L' :: ' ' :: '1' :: '.' :: _
      | '%' :: 'T' :: 'A' :: 'G' :: ' ' :: _ =>
          if place.column = 0 then
            skipDirectives? fuel true (place.skipWhile (· != '\n'))
          else none
      | _ => some (found, place)

/-- The place starts with three of `mark`. -/
def startsMarker (mark : Char) (place : Place) : Bool :=
  place.atMarker && place.rest.head? == some mark

/-- Nothing but document ends, blanks and comments is left. -/
def isFinished : Nat → Place → Bool
  | 0, _ => false
  | fuel + 1, place =>
      let (_, place) := place.toContent false
      if startsMarker '.' place then isFinished fuel (place.skip 3)
      else place.rest.isEmpty

/-- Read the document of a text.  Every nested call has passed a character after at
most four calls, so the length of the text bounds the depth. -/
def read? (text : String) : Option Value := do
  let chars := match text.toList with
    | '\uFEFF' :: rest => rest
    | chars => chars
  if !chars.all isAllowed then none
  else
    let chars := normalizeBreaks chars
    let size := chars.length
    let (directed, place) ← skipDirectives? (size + 1) false (.start chars)
    if place.rest.isEmpty ∧ !directed then some emptyScalar
    else if startsMarker '.' place then none
    else
      let marked := startsMarker '-' place
      if directed && !marked then none
      else
        let start := if marked then place.skip 3 else place
        let (value, reading) ← readNode? (-1) (!marked) false (6 * size + 6) ⟨start, []⟩
        if isFinished (size + 1) reading.place then some value else none

end PipelineUpkeep.Data.Yaml

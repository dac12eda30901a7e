/-!
# Places in a YAML text

A place is what is left of a text, with the line and the column it starts at.
Line breaks are single line feeds: `normalizeBreaks` brings every text into that
form before it is read.  A tab may separate tokens, but not where the column
decides the structure.
-/

namespace PipelineUpkeep.Data.Yaml

/-- A place in a text. -/
structure Place where
  line : Nat
  column : Nat
  rest : List Char
  /-- A bound for what is left, for instance the length of the whole text. -/
  size : Nat
  length_rest_le : rest.length ≤ size

/-- Line feeds instead of carriage returns and next-line characters. -/
def normalizeBreaks : List Char → List Char
  | '\r' :: '\n' :: rest => '\n' :: normalizeBreaks rest
  | '\r' :: rest => '\n' :: normalizeBreaks rest
  | '\x85' :: rest => '\n' :: normalizeBreaks rest
  | c :: rest => c :: normalizeBreaks rest
  | [] => []

/-- A character that a text may hold. -/
def isAllowed (c : Char) : Bool :=
  let n := c.toNat
  n == 0x09 || n == 0x0A || n == 0x0D || n == 0x85 || (0x20 ≤ n && n ≤ 0x7E) ||
    (0xA0 ≤ n && n != 0xFFFE && n != 0xFFFF)

def isSpaceOrTab (c : Char) : Bool :=
  c == ' ' || c == '\t'

/-- The text ends, or goes on with a blank or a line break. -/
def startsBlank : List Char → Bool
  | [] => true
  | c :: _ => isSpaceOrTab c || c == '\n'

namespace Place

/-- The place `count` characters further on the same line. -/
def skip (place : Place) (count : Nat) : Place where
  line := place.line
  column := place.column + count
  rest := place.rest.drop count
  size := place.size
  length_rest_le := by
    rw [List.length_drop]
    exact Nat.le_trans (Nat.sub_le _ _) place.length_rest_le

/-- The start of the next line, where the place is at a line break. -/
def nextLine (place : Place) : Place :=
  { place.skip 1 with line := place.line + 1, column := 0 }

/-- The start of a text. -/
def start (text : List Char) : Place :=
  ⟨0, 0, text, text.length, Nat.le_refl _⟩

/-- The place after the characters at the front that satisfy a property. -/
def skipWhile (place : Place) (property : Char → Bool) : Place :=
  place.skip (place.rest.takeWhile property).length

/-- The text goes on with `indicator`, and then with a blank or its end. -/
def startsEntry (place : Place) (indicator : Char) : Bool :=
  match place.rest with
  | c :: rest => c == indicator && startsBlank rest
  | [] => false

/-- A line that starts with three dashes or three points ends a document. -/
def atMarker (place : Place) : Bool :=
  place.column == 0 &&
    match place.rest with
    | '-' :: '-' :: '-' :: rest | '.' :: '.' :: '.' :: rest => startsBlank rest
    | _ => false

/-- Nothing of the document is left. -/
def atEnd (place : Place) : Bool :=
  place.rest.isEmpty || place.atMarker

/-- The next content: past blanks, comments and line breaks.  Gives whether a new
line has begun.  Where `tabs` does not hold, a tab counts as content; on later
lines it always does unless `everywhere` holds. -/
def nextContent (everywhere : Bool) : Nat → Bool → Bool → Place → Bool × Place
  | 0, _, begun, place => (begun, place)
  | fuel + 1, tabs, begun, place =>
      let place := place.skipWhile fun c => c == ' ' || (tabs && c == '\t')
      let place :=
        if place.rest.head? = some '#' then place.skipWhile (· != '\n') else place
      if place.rest.head? = some '\n' then
        nextContent everywhere fuel everywhere true place.nextLine
      else (begun, place)

/-- The next content between lines of a block; gives whether a key may stand
there, which is so on a new line. -/
def toContent (keyAllowed : Bool) (place : Place) : Bool × Place :=
  nextContent false (place.size + 1) (!keyAllowed) keyAllowed place

/-- The next content inside brackets or braces. -/
def toFlowContent (place : Place) : Place :=
  (nextContent true (place.size + 1) true false place).2

end Place

end PipelineUpkeep.Data.Yaml

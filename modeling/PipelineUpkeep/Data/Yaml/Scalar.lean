import PipelineUpkeep.Data.Yaml.Place
import PipelineUpkeep.Text.Hexadecimal
/-!
# Scalars of YAML

Plain texts, texts in single and double quotes, and blocks of lines.  Inside
plain and quoted texts a single line break with the blanks around it stands for
one space, and every further line break for itself.
-/

namespace PipelineUpkeep.Data.Yaml

open Text

/-- What stands between two words: blanks on one line, or line breaks. -/
inductive Gap where
  | blanks (text : List Char)
  | breaks (count : Nat)

/-- The text that a gap stands for. -/
def Gap.content : Gap → List Char
  | blanks text => text
  | breaks 0 => []
  | breaks 1 => [' ']
  | breaks (count + 1) => List.replicate count '\n'

/-- The line breaks at a place and the blanks after each; `count` breaks have been
passed.  A tab must not stand left of the column `limit`. -/
def readBreaks? (limit : Nat) : Nat → Nat → Place → Option (Nat × Place)
  | 0, _, _ => none
  | fuel + 1, count, place =>
      let spaces := place.skipWhile (· == ' ')
      if spaces.rest.head? = some '\t' ∧ spaces.column < limit then none
      else
        let place := spaces.skipWhile isSpaceOrTab
        if place.rest.head? = some '\n' then readBreaks? limit fuel (count + 1) place.nextLine
        else some (count, place)

/-- The gap at a place. -/
def readGap? (limit : Nat) (place : Place) : Option (Gap × Place) :=
  let blanks := place.rest.takeWhile isSpaceOrTab
  let place := place.skip blanks.length
  if place.rest.head? = some '\n' then
    (readBreaks? limit (place.size + 1) 1 place.nextLine).map
      fun (count, place) => (.breaks count, place)
  else some (.blanks blanks, place)

/-- A mark that ends a plain text inside brackets or braces. -/
def isFlowMark (c : Char) : Bool :=
  c == ',' || c == '[' || c == ']' || c == '\x7b' || c == '\x7d'

/-- A word of a plain text.  A colon ends it before a blank; inside brackets or
braces a colon must not stand before a mark. -/
def readWord? (inFlow : Bool) : List Char → Option (List Char)
  | [] => some []
  | c :: rest =>
      if isSpaceOrTab c || c == '\n' then some []
      else if c = ':' ∧ startsBlank rest then some []
      else if inFlow && c == ':' && (rest.head?.any fun c => isFlowMark c || c == '?') then none
      else if inFlow && isFlowMark c then some []
      else (readWord? inFlow rest).map (c :: ·)

/-- The words of a plain text, after a gap.  The text ends before a comment, a
mark, the end of the document, and outside brackets and braces before a line that
starts left of the column `limit`. -/
def readWords? (inFlow : Bool) (limit : Nat) : Nat → Gap → Place → Option (List Char × Place)
  | 0, _, _ => none
  | fuel + 1, gap, place =>
      if place.atMarker ∨ place.rest.head? = some '#' then some ([], place)
      else do
        let word ← readWord? inFlow place.rest
        if word.isEmpty then some ([], place)
        else
          let after := place.skip word.length
          if startsBlank after.rest ∧ after.rest ≠ [] then
            let (next, after) ← readGap? limit after
            if !inFlow ∧ after.column < limit then some (gap.content ++ word, after)
            else
              let (more, after) ← readWords? inFlow limit fuel next after
              some (gap.content ++ word ++ more, after)
          else some (gap.content ++ word, after)

/-- A plain text. -/
def readPlain? (inFlow : Bool) (limit : Nat) (place : Place) : Option (List Char × Place) :=
  readWords? inFlow limit (place.size + 1) (.blanks []) place

/-- A plain text may start here. -/
def startsPlain (inFlow : Bool) : List Char → Bool
  | [] => false
  | c :: rest =>
      if c == '-' then !startsBlank rest
      else if c == '?' || c == ':' then !inFlow && !startsBlank rest
      else !isSpaceOrTab c && c != '\n' && !isFlowMark c &&
        !("#&*!|>'\"%@\x60".toList.contains c)

/-- The character of an escape sequence after its backslash, and the number of
characters it takes. -/
def readEscape? : List Char → Option (Char × Nat)
  | [] => none
  | c :: rest =>
      let codePoint (count : Nat) : Option (Char × Nat) :=
        (readCodePoint? count rest).map fun (c, _) => (c, count + 1)
      match c with
      | '0' => some ('\x00', 1)
      | 'a' => some ('\x07', 1)
      | 'b' => some ('\x08', 1)
      | 't' | '\t' => some ('\t', 1)
      | 'n' => some ('\n', 1)
      | 'v' => some ('\x0b', 1)
      | 'f' => some ('\x0c', 1)
      | 'r' => some ('\r', 1)
      | 'e' => some ('\x1b', 1)
      | ' ' => some (' ', 1)
      | '"' => some ('"', 1)
      | '/' => some ('/', 1)
      | '\\' => some ('\\', 1)
      | 'N' => some ('\u0085', 1)
      | '_' => some ('\u00A0', 1)
      | 'L' => some ('\u2028', 1)
      | 'P' => some ('\u2029', 1)
      | 'x' => codePoint 2
      | 'u' => codePoint 4
      | 'U' => codePoint 8
      | _ => none

/-- A quoted text after its opening quote.  In single quotes a quote is written
twice; in double quotes there are escape sequences, and a backslash takes away
the line break after it. -/
def readQuoted? (quote : Char) : Nat → Place → Option (List Char × Place)
  | 0, _ => none
  | fuel + 1, place =>
      if place.atMarker then none
      else
        match place.rest with
        | [] => none
        | c :: rest =>
            if c = quote then
              if quote = '\'' ∧ rest.head? = some '\'' then do
                let (content, after) ← readQuoted? quote fuel (place.skip 2)
                some ('\'' :: content, after)
              else some ([], place.skip 1)
            else if c = '\\' ∧ quote = '"' then
              if rest.head? = some '\n' then do
                -- The escaped break itself stands for nothing; only further ones count.
                let start := (place.skip 1).nextLine
                let (count, after) ← readBreaks? 0 (place.size + 1) 0 start
                let (content, after) ← readQuoted? quote fuel after
                some (List.replicate count '\n' ++ content, after)
              else do
                let (escaped, count) ← readEscape? rest
                let (content, after) ← readQuoted? quote fuel (place.skip (count + 1))
                some (escaped :: content, after)
            else if isSpaceOrTab c || c == '\n' then do
              let (gap, after) ← readGap? 0 place
              let (content, after) ← readQuoted? quote fuel after
              some (gap.content ++ content, after)
            else do
              let (content, after) ← readQuoted? quote fuel (place.skip 1)
              some (c :: content, after)

/-- What becomes of the line breaks at the end of a block. -/
inductive Chomp where
  | strip
  | clip
  | keep
  deriving DecidableEq

/-- The header of a block after its first mark: whether line breaks at the end
are kept, and the indentation if it is given. -/
def readBlockHeader? (text : List Char) : Option (Chomp × Option Nat × Nat) :=
  let chomp? (c : Char) : Option Chomp :=
    if c = '-' then some .strip else if c = '+' then some .keep else none
  let width? (c : Char) : Option Nat :=
    if isDigit c then some (digitValue c) else none
  let checked (chomp : Chomp) (width : Option Nat) (count : Nat) :=
    if width = some 0 then none else some (chomp, width, count)
  match text with
  | a :: b :: _ =>
      -- The two indicators may stand in either order.
      match chomp? a, width? b, width? a, chomp? b with
      | some chomp, some width, _, _ => checked chomp (some width) 2
      | some chomp, none, _, _ => checked chomp none 1
      | _, _, some width, some chomp => checked chomp (some width) 2
      | _, _, some width, none => checked .clip (some width) 1
      | _, _, _, _ => checked .clip none 0
  | [a] =>
      match chomp? a, width? a with
      | some chomp, _ => checked chomp none 1
      | _, some width => checked .clip (some width) 1
      | _, _ => checked .clip none 0
  | [] => checked .clip none 0

/-- The empty lines at a place: their number, the greatest column that spaces
reach, and the place after the indentation of the next line.  Without a known
indentation every space counts as indentation. -/
def readEmptyLines? (indentation : Option Nat) :
    Nat → Nat → Nat → Place → Option (Nat × Nat × Place)
  | 0, _, _, _ => none
  | fuel + 1, count, greatest, place =>
      let spaces := (place.rest.takeWhile (· == ' ')).length
      let place := place.skip (match indentation with
        | some width => min spaces (width - place.column)
        | none => spaces)
      let greatest := max greatest place.column
      if place.rest.head? = some '\t' ∧ indentation.all (place.column < ·) then none
      else if place.rest.head? = some '\n' then
        readEmptyLines? indentation fuel (count + 1) greatest place.nextLine
      else some (count, greatest, place)

/-- The lines of a block.  `broken` line breaks stand before the line: the first
ends a line of the block unless `isFirst` holds, the others are empty lines.
Where `folded` holds, a single break between lines that do not start with a blank
becomes a space.  Gives the number of line breaks at the end as well. -/
def readBlockLines? (folded : Bool) (width : Nat) :
    Nat → Bool → Bool → Nat → Place → Option (List Char × Nat × Place)
  | 0, _, _, _, _ => none
  | fuel + 1, isFirst, afterBlank, empty, place =>
      let ended := if isFirst then 0 else 1
      if place.column ≠ width ∨ place.rest = [] then some ([], ended + empty, place)
      else do
        let startsWithBlank := place.rest.head?.any isSpaceOrTab
        let joint :=
          if folded ∧ !isFirst ∧ !afterBlank ∧ !startsWithBlank then
            if empty = 0 then [' '] else List.replicate empty '\n'
          else List.replicate (ended + empty) '\n'
        let line := place.rest.takeWhile (· != '\n')
        let after := place.skip line.length
        if after.rest.isEmpty then some (joint ++ line, 0, after)
        else
          let (empty, _, after) ←
            readEmptyLines? (some width) (after.size + 1) 0 0 after.nextLine
          let (content, final, after) ←
            readBlockLines? folded width fuel false startsWithBlank empty after
          some (joint ++ line ++ content, final, after)

/-- A block of lines after its first mark.  It is indented by at least one more
than what it stands in. -/
def readBlock? (folded : Bool) (indent : Int) (place : Place) : Option (List Char × Place) := do
  let (chomp, given, count) ← readBlockHeader? place.rest
  let place := (place.skip count).skipWhile isSpaceOrTab
  let place :=
    if place.rest.head? = some '#' then place.skipWhile (· != '\n') else place
  match place.rest with
  | [] => some ([], place)
  | '\n' :: _ =>
      let least := (indent + 1).toNat
      let known := given.map fun width => (if 0 ≤ indent then indent.toNat else 0) + width
      let (empty, greatest, place) ←
        readEmptyLines? known (place.size + 1) 0 0 place.nextLine
      -- Without an indicator the empty lines and the first other one tell the width.
      let width := known.getD (max 1 (max greatest least))
      let (content, final, place) ←
        readBlockLines? folded width (place.size + 1) true false empty place
      let hasLine := !content.isEmpty
      let tail := match chomp with
        | .strip => 0
        | .clip => if hasLine then min final 1 else 0
        | .keep => final
      some (content ++ List.replicate tail '\n', place)
  | _ => none

end PipelineUpkeep.Data.Yaml

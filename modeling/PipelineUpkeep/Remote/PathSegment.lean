import PipelineUpkeep.Text.Hexadecimal
/-!
# Path segments

A segment of a web path is any text.  Characters that would end the segment or
that a web address cannot hold are written as a percent sign and two hexadecimal
digits for each byte of their UTF-8 form.  Tabs and line breaks are left out.
-/

namespace PipelineUpkeep

open Text

/-- Tabs and line breaks, which do not count in web addresses. -/
def isTabOrBreak (c : Char) : Bool :=
  c == '\t' || c == '\n' || c == '\r'

/-- The character cannot stand for itself in the path of a web address. -/
def isEscapedInPath (c : Char) : Bool :=
  c.toNat < 0x20 || 0x7F ≤ c.toNat ||
    [' ', '"', '#', '<', '>', '?', Char.ofNat 96, '\x7b', '\x7d'].contains c

/-- The character cannot stand for itself within a segment. -/
def isEscapedInSegment (c : Char) : Bool :=
  isEscapedInPath c || c == '/' || c == '%' || c == '\\'

/-- A percent sign and two digits for a byte. -/
def percentByte (byte : UInt8) : List Char :=
  '%' :: upperHexDigits 2 byte.toNat

/-- A percent sign and two digits for each byte of a character. -/
def percentChar (c : Char) : List Char :=
  (String.utf8EncodeChar c).flatMap percentByte

/-- Write the characters that are `escaped` as bytes. -/
def percentEncode (escaped : Char → Bool) (text : List Char) : List Char :=
  text.flatMap fun c => if escaped c then percentChar c else [c]

/-- The bytes that a text with percent signs stands for.  A percent sign without two
digits stands for itself. -/
def percentDecode : List Char → List UInt8
  | [] => []
  | '%' :: high :: low :: rest =>
      match hexValue? high, hexValue? low with
      | some a, some b => UInt8.ofNat (16 * a + b) :: percentDecode rest
      | _, _ => UInt8.ofNat 37 :: percentDecode (high :: low :: rest)
  | c :: rest => String.utf8EncodeChar c ++ percentDecode rest

/-- A segment that means the folder itself. -/
def isSingleDot (segment : List Char) : Bool :=
  segment == ['.'] || (segment.map Char.toLower) == ['%', '2', 'e']

/-- A segment that means the folder above. -/
def isDoubleDot (segment : List Char) : Bool :=
  let lower := segment.map Char.toLower
  [['.', '.'], ['.', '%', '2', 'e'], ['%', '2', 'e', '.'],
    ['%', '2', 'e', '%', '2', 'e']].contains lower

/-- Add the segment that a text stands for to a path.  A segment of one or two dots
is not added; with a tab or line break between the dots, it ends the path or takes
the last segment away as in an address. -/
def pushSegment (path : List (List Char)) (text : String) : List (List Char) :=
  if text = "." ∨ text = ".." then path
  else
    let segment := percentEncode isEscapedInSegment (text.toList.filter (!isTabOrBreak ·))
    if isDoubleDot segment then path.dropLast ++ [[]]
    else if isSingleDot segment then path ++ [[]]
    else path ++ [segment]

end PipelineUpkeep

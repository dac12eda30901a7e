import PipelineUpkeep.Data.Decode
import PipelineUpkeep.Text.Hexadecimal
/-!
# Styles of YAML texts

A text is written plain where it reads back as the same text: it must not read as
another type, nor hold a mark of the block structure.  Otherwise it is written in
single quotes, as a block of lines if it has line breaks, or in double quotes if
it has characters that only an escape sequence can hold.
-/

namespace PipelineUpkeep.Data.Yaml

open Text

/-- The ways to write a text. -/
inductive Style where
  | plain
  | single
  | double
  /-- A block of lines that keeps its line breaks. -/
  | lines
  deriving DecidableEq, Repr

/-- A character that stands for itself. -/
def isVisible (c : Char) : Bool :=
  let n := c.toNat
  c == '\n' || (0x20 ≤ n && n ≤ 0x7E) ||
    (0xA0 ≤ n && n != 0xFEFF && n != 0xFFFE && n != 0xFFFF)

/-- A character that ends a line. -/
def isBreak (c : Char) : Bool :=
  c == '\n' || c == '\r' || c == '\u0085' || c == '\u2028' || c == '\u2029'

/-- Digits with zeros in front: a text, though some readers take it for a number. -/
def isZeroPadded (text : List Char) : Bool :=
  let digits := match text with
    | '-' :: rest | '+' :: rest => rest
    | text => text
  match digits with
  | '0' :: c :: rest => (c :: rest).all isDigit
  | _ => false

/-- The text denotes an integer, decimal or in another base. -/
def isInteger (text : List Char) : Bool :=
  match text with
  | '-' :: '+' :: _ => false
  | '-' :: rest => (Decode.plainNat? rest).isSome && rest.head? != some '-'
  | '+' :: '-' :: _ | '+' :: '+' :: _ => false
  | text => (Decode.plainNat? text).isSome

/-- The digits of a mantissa times a power of ten do not exceed the greatest real
number of 64 bits. -/
def isFinite (digits : List Char) (exponent : Int) : Bool :=
  let n := digitsValue digits
  let size := (natDigits n).length
  if n = 0 ∨ size + exponent < 300 then true
  else if size + exponent > 310 then false
  else
    -- From here on a number rounds to infinity.
    let bound := Nat.pow 2 1024 - Nat.pow 2 970
    if 0 ≤ exponent then n * Nat.pow 10 exponent.toNat < bound
    else n < bound * Nat.pow 10 exponent.natAbs

/-- An exponent with an optional sign. -/
def exponentOf? (text : List Char) : Option Int :=
  match text with
  | '-' :: digits => (readNat? digits).map fun n => -(n : Int)
  | '+' :: digits => (readNat? digits).map fun n => (n : Int)
  | digits => (readNat? digits).map fun n => (n : Int)

/-- The text without a sign denotes a finite real number. -/
def isUnsignedReal (text : List Char) : Bool :=
  let (mantissa, exponent) :=
    match text.span fun c => c != 'e' && c != 'E' with
    | (mantissa, _ :: exponent) => (mantissa, exponentOf? exponent)
    | (mantissa, []) => (mantissa, some 0)
  let (whole, fraction) := match splitAtFirst? '.' mantissa with
    | some parts => parts
    | none => (mantissa, [])
  let digits := whole ++ fraction
  match exponent with
  | none => false
  | some exponent =>
      !digits.isEmpty && digits.all isDigit && isFinite digits (exponent - fraction.length)

/-- The text denotes a real number, infinity or no number. -/
def isReal (text : List Char) : Bool :=
  let names := [".inf", ".Inf", ".INF", "-.inf", "-.Inf", "-.INF", "+.inf", "+.Inf", "+.INF",
    ".nan", ".NaN", ".NAN"]
  names.contains (String.ofList text) ||
    match text with
    | '-' :: rest | '+' :: rest => isUnsignedReal rest
    | text => isUnsignedReal text

/-- The truth values of older versions of the format. -/
def truthWords : List String :=
  ["y", "Y", "yes", "Yes", "YES", "n", "N", "no", "No", "NO", "true", "True", "TRUE", "false",
    "False", "FALSE", "on", "On", "ON", "off", "Off", "OFF"]

/-- Without quotes the text would read as another type, here or elsewhere. -/
def readsAsOther (text : List Char) : Bool :=
  truthWords.contains (String.ofList text) || Decode.isPlainNull (String.ofList text) ||
    isInteger text || isZeroPadded text || isReal text

/-- The text ends, or goes on with a blank or a line break. -/
def blankFollows : List Char → Bool
  | [] => true
  | c :: _ => c == ' ' || c == '\t' || isBreak c

/-- A mark of the block structure stands after the first character. -/
def hasInnerMark (afterBlank : Bool) : List Char → Bool
  | [] => false
  | c :: rest =>
      (c == ':' && blankFollows rest) || (c == '#' && afterBlank) ||
        hasInnerMark (c == ' ' || c == '\t' || isBreak c) rest

/-- A mark of the block structure stands at the start or inside. -/
def hasMark (text : List Char) : Bool :=
  match text with
  | [] => false
  | c :: rest =>
      text.take 3 == ['-', '-', '-'] || text.take 3 == ['.', '.', '.'] ||
        "#,[]\x7b\x7d&*!|>'\"%@\x60".toList.contains c ||
        ((c == '?' || c == ':' || c == '-') && blankFollows rest) ||
        hasInnerMark (c == ' ' || c == '\t' || isBreak c) rest

/-- Two neighbours satisfy `first` and `second`. -/
def hasNeighbours (first second : Char → Bool) : List Char → Bool
  | a :: b :: rest => (first a && second b) || hasNeighbours first second (b :: rest)
  | _ => false

/-- The style of a text. -/
def styleOf (text : List Char) : Style :=
  let isSpace (c : Char) : Bool := c == ' '
  let hidden := !text.all isVisible || hasNeighbours isSpace isBreak text
  let endsInSpace := text.getLast?.any isSpace
  let singleFits := !hidden && !hasNeighbours isBreak isSpace text
  let plainFits := singleFits && !text.any isBreak && !text.head?.any isSpace && !endsInSpace &&
    !hasMark text
  let quoted : Style := if singleFits then .single else .double
  -- Truth words come first: they stay quoted even where plain would fit.
  if truthWords.contains (String.ofList text) then quoted
  else if text.contains '\n' then if hidden || endsInSpace then .double else .lines
  else if readsAsOther text then quoted
  else if plainFits then .plain
  else quoted

/-- A character in double quotes. -/
def escapeDouble (c : Char) : List Char :=
  let n := c.toNat
  match c with
  | '"' => ['\\', '"']
  | '\\' => ['\\', '\\']
  | '\x00' => ['\\', '0']
  | '\x07' => ['\\', 'a']
  | '\x08' => ['\\', 'b']
  | '\t' => ['\\', 't']
  | '\n' => ['\\', 'n']
  | '\x0b' => ['\\', 'v']
  | '\x0c' => ['\\', 'f']
  | '\r' => ['\\', 'r']
  | '\x1b' => ['\\', 'e']
  | '\u0085' => ['\\', 'N']
  | '\u2028' => ['\\', 'L']
  | '\u2029' => ['\\', 'P']
  | c =>
      if isVisible c then [c]
      else if n ≤ 0xFF then '\\' :: 'x' :: upperHexDigits 2 n
      else '\\' :: 'u' :: upperHexDigits 4 n

/-- The lines of a block, each indented unless it is empty. -/
def indentLines (indent : Nat) (text : List Char) : List Char :=
  ['\n'].intercalate ((text.splitOn '\n').map fun line =>
    if line.isEmpty then [] else List.replicate indent ' ' ++ line)

/-- The marks after the bar of a block: the indentation where the block starts with
a blank, a minus where it does not end in a line break, and a plus where it ends in
more than one or is nothing but one. -/
def blockMarks (text : List Char) : List Char :=
  let start := if text.head?.any fun c => c == ' ' || isBreak c then ['2'] else []
  let finish := match text.reverse with
    | '\n' :: '\n' :: _ => ['+']
    | ['\n'] => ['+']
    | '\n' :: _ => []
    | _ => ['-']
  start ++ finish

/-- A text to the end of its line, or of its last line; lines of a block are
indented by `indent`. -/
def textChars (indent : Nat) (text : List Char) : List Char :=
  match styleOf text with
  | .plain => text ++ ['\n']
  | .single =>
      '\'' :: text.flatMap (fun c => if c = '\'' then ['\'', '\''] else [c]) ++ ['\'', '\n']
  | .double => '"' :: text.flatMap escapeDouble ++ ['"', '\n']
  | .lines =>
      '|' :: blockMarks text ++ '\n' :: indentLines indent text ++
        (if text.getLast? = some '\n' then [] else ['\n'])

end PipelineUpkeep.Data.Yaml

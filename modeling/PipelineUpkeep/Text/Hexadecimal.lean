import PipelineUpkeep.Text.Decimal
/-!
# Hexadecimal numerals

Digits are read in either case; which case is written is for the caller to say.
-/

namespace PipelineUpkeep.Text

/-- The value of a hexadecimal digit. -/
def hexValue? (c : Char) : Option Nat :=
  let n := c.toNat
  if isDigit c then some (n - 48)
  else if 97 ≤ n ∧ n ≤ 102 then some (n - 87)
  else if 65 ≤ n ∧ n ≤ 70 then some (n - 55)
  else none

/-- A hexadecimal digit in lower case. -/
def lowerHexDigit (n : Nat) : Char :=
  if n < 10 then Char.ofNat (48 + n) else Char.ofNat (87 + n)

/-- A hexadecimal digit in upper case. -/
def upperHexDigit (n : Nat) : Char :=
  if n < 10 then Char.ofNat (48 + n) else Char.ofNat (55 + n)

/-- The last `count` hexadecimal digits of a number, in upper case. -/
def upperHexDigits : Nat → Nat → List Char
  | 0, _ => []
  | count + 1, n => upperHexDigits count (n / 16) ++ [upperHexDigit (n % 16)]

/-- The number that digits denote in a base of at most 16, if they are all digits
of that base; nothing denotes zero. -/
def valueInBase? (base : Nat) (digits : List Char) : Option Nat :=
  digits.foldlM
    (fun value c => ((hexValue? c).filter (· < base)).map (base * value + ·)) 0

/-- The number written with the first `count` characters, all of them hexadecimal
digits, and what follows. -/
def readHexDigits? (count : Nat) (text : List Char) : Option (Nat × List Char) :=
  let digits := text.take count
  if digits.length = count then (valueInBase? 16 digits).map (·, text.drop count) else none

/-- The code point is a character: not a surrogate and not too great. -/
def isCharCode (n : Nat) : Bool :=
  n < 0xD800 || (0xE000 ≤ n && n < 0x110000)

/-- The character whose code point is written with `count` hexadecimal digits, and
what follows. -/
def readCodePoint? (count : Nat) (text : List Char) : Option (Char × List Char) := do
  let (n, rest) ← readHexDigits? count text
  if isCharCode n then some (Char.ofNat n, rest) else none

theorem length_upperHexDigits (count n : Nat) : (upperHexDigits count n).length = count := by
  induction count generalizing n with
  | zero => rfl
  | succ count ih => simp [upperHexDigits, ih]

end PipelineUpkeep.Text

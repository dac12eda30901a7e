import PipelineUpkeep.Text.Blank
/-!
# Decimal numerals

Natural numbers as runs of the ASCII digits.  Reading accepts any number of
leading zeros and no sign; writing gives the shortest run.  Numbers in files and
arguments have 32 or 64 bits, or 63 and a sign; each bound is the first number
that is too great.
-/

namespace PipelineUpkeep.Text

/-- 2³² -/
def bound32 : Nat := 4294967296

/-- 2⁶³ -/
def bound63 : Nat := 9223372036854775808

/-- 2⁶⁴ -/
def bound64 : Nat := 18446744073709551616

/-- The ASCII digits only. -/
def isDigit (c : Char) : Bool :=
  48 ≤ c.toNat && c.toNat ≤ 57

/-- The value of an ASCII digit. -/
def digitValue (c : Char) : Nat :=
  c.toNat - 48

/-- The number that a run of digits denotes, continuing from `value`. -/
def digitsValueFrom (value : Nat) : List Char → Nat
  | [] => value
  | c :: rest => digitsValueFrom (10 * value + digitValue c) rest

/-- The number that a run of digits denotes. -/
def digitsValue (digits : List Char) : Nat :=
  digitsValueFrom 0 digits

/-- Read a text that is one or more digits and nothing else. -/
def readNat? (text : List Char) : Option Nat :=
  if text.isEmpty || !text.all isDigit then none else some (digitsValue text)

/-- Read digits with an optional plus sign, up to a greatest value. -/
def readNatUpTo? (greatest : Nat) (text : List Char) : Option Nat :=
  let digits := match text with
    | '+' :: rest => rest
    | _ => text
  match readNat? digits with
  | some n => if n ≤ greatest then some n else none
  | none => none

/-- The shortest run of digits that denotes `n`. -/
def natDigits (n : Nat) : List Char :=
  Nat.toDigits 10 n

/-- The shortest numeral of an integer, with a minus sign below zero. -/
def intDigits (n : Int) : List Char :=
  match n with
  | .ofNat n => natDigits n
  | .negSucc n => '-' :: natDigits (n + 1)

/-- The digits of `n` with zeros in front up to `width` characters. -/
def paddedDigits (width n : Nat) : List Char :=
  let digits := natDigits n
  List.replicate (width - digits.length) '0' ++ digits

/-- As `paddedDigits`, as a string. -/
def padded (width n : Nat) : String :=
  String.ofList (paddedDigits width n)

/-- The longest run of digits at the front, and what follows it. -/
def spanDigits (text : List Char) : List Char × List Char :=
  (text.takeWhile isDigit, text.dropWhile isDigit)

theorem readNat?_eq_some {text : List Char} {n : Nat} (h : readNat? text = some n) :
    text ≠ [] ∧ text.all isDigit = true ∧ digitsValue text = n := by
  unfold readNat? at h
  split at h
  · simp at h
  · rename_i hShape
    simp only [Bool.or_eq_true, List.isEmpty_iff, Bool.not_eq_true', not_or,
      Bool.not_eq_false] at hShape
    exact ⟨hShape.1, hShape.2, by simpa using h⟩

end PipelineUpkeep.Text

import Mathlib.Algebra.Group.Nat.Defs
import PipelineUpkeep.Text.Decimal
/-!
# Laws of decimal numerals

A numeral consists of digits, denotes the number that it was written for, and keeps that
value behind zeros.  Digits are not blank, so a numeral is read from the front of a text
up to the first character that is no digit.
-/

namespace PipelineUpkeep.Text

theorem isDigit_eq (c : Char) : isDigit c = c.isDigit := by
  rw [Bool.eq_iff_iff]
  simp [isDigit, Char.isDigit, UInt32.le_iff_toNat_le]

theorem digitsValueFrom_eq_ofDigitChars (value : Nat) (text : List Char) :
    digitsValueFrom value text = Nat.ofDigitChars 10 text value := by
  induction text generalizing value with
  | nil => rfl
  | cons c rest ih => exact ih _

/-! ## Numerals -/

theorem natDigits_ne_nil (n : Nat) : natDigits n ≠ [] :=
  Nat.toDigits_ne_nil

theorem isDigit_of_mem_natDigits {n : Nat} {c : Char} (h : c ∈ natDigits n) :
    isDigit c = true := by
  rw [isDigit_eq]
  exact Nat.isDigit_of_mem_toDigits (by decide) (by decide) h

@[simp]
theorem digitsValue_natDigits (n : Nat) : digitsValue (natDigits n) = n := by
  rw [digitsValue, digitsValueFrom_eq_ofDigitChars, natDigits, Nat.ofDigitChars_ten_toDigits]

theorem paddedDigits_ne_nil (width n : Nat) : paddedDigits width n ≠ [] := by
  simp [paddedDigits, natDigits_ne_nil]

theorem isDigit_of_mem_paddedDigits {width n : Nat} {c : Char} (h : c ∈ paddedDigits width n) :
    isDigit c = true := by
  rcases List.mem_append.1 h with hZero | hDigit
  · rw [List.eq_of_mem_replicate hZero]
    rfl
  · exact isDigit_of_mem_natDigits hDigit

@[simp]
theorem digitsValue_paddedDigits (width n : Nat) : digitsValue (paddedDigits width n) = n := by
  rw [digitsValue, digitsValueFrom_eq_ofDigitChars, paddedDigits, Nat.ofDigitChars_append,
    Nat.ofDigitChars_replicate_zero, Nat.mul_zero, natDigits, Nat.ofDigitChars_ten_toDigits]

theorem length_paddedDigits {width n : Nat} (hWidth : 0 < width) (h : n < 10 ^ width) :
    (paddedDigits width n).length = width := by
  have hLength : (natDigits n).length ≤ width :=
    (Nat.length_toDigits_le_iff (by decide) hWidth).2 h
  simp only [paddedDigits, List.length_append, List.length_replicate]
  omega

theorem ofDigitChars_lt {digits : List Char} (hDigits : ∀ c ∈ digits, isDigit c = true)
    (value : Nat) : Nat.ofDigitChars 10 digits value < (value + 1) * 10 ^ digits.length := by
  induction digits generalizing value with
  | nil => simp
  | cons c rest ih =>
      have hDigit : c.toNat ≤ 57 := by
        have hBounds := hDigits c List.mem_cons_self
        simp only [isDigit, Bool.and_eq_true, decide_eq_true_eq] at hBounds
        exact hBounds.2
      have hValue : 10 * value + (c.toNat - '0'.toNat) + 1 ≤ (value + 1) * 10 := by
        have hZero : '0'.toNat = 48 := rfl
        omega
      rw [Nat.ofDigitChars_cons, List.length_cons, Nat.pow_succ', ← Nat.mul_assoc]
      exact Nat.lt_of_lt_of_le (ih (fun d hd => hDigits d (List.mem_cons_of_mem _ hd)) _)
        (Nat.mul_le_mul_right _ hValue)

theorem digitsValue_lt {digits : List Char} (hDigits : ∀ c ∈ digits, isDigit c = true) :
    digitsValue digits < 10 ^ digits.length := by
  rw [digitsValue, digitsValueFrom_eq_ofDigitChars]
  simpa using ofDigitChars_lt hDigits 0

/-! ## Numerals at the front of a text -/

theorem isBlank_of_isDigit {c : Char} (h : isDigit c = true) : isBlank c = false := by
  simp only [isDigit, Bool.and_eq_true, decide_eq_true_eq] at h
  simp only [isBlank, Bool.or_eq_false_iff, Bool.and_eq_false_iff, decide_eq_false_iff_not,
    beq_eq_false_iff_ne]
  omega

theorem trimStart_of_head {text : List Char} (h : ∀ c, text.head? = some c → isBlank c = false) :
    trimStart text = text := by
  cases text with
  | nil => rfl
  | cons c rest => simp [trimStart, h c rfl]

theorem trimStart_digits {digits : List Char} (hDigits : ∀ c ∈ digits, isDigit c = true)
    (hSome : digits ≠ []) (rest : List Char) : trimStart (digits ++ rest) = digits ++ rest := by
  refine trimStart_of_head ?_
  intro c hHead
  cases digits with
  | nil => exact absurd rfl hSome
  | cons first more =>
      obtain rfl : first = c := by simpa using hHead
      exact isBlank_of_isDigit (hDigits first List.mem_cons_self)

/-- A run of digits ends where no digit follows. -/
theorem spanDigits_digits {digits rest : List Char} (hDigits : ∀ c ∈ digits, isDigit c = true)
    (hRest : ∀ c, rest.head? = some c → isDigit c = false) :
    spanDigits (digits ++ rest) = (digits, rest) := by
  have hNone : rest.takeWhile isDigit = [] ∧ rest.dropWhile isDigit = rest := by
    cases rest with
    | nil => exact ⟨rfl, rfl⟩
    | cons c more => simp [hRest c rfl]
  rw [spanDigits, List.takeWhile_append_of_pos hDigits, List.dropWhile_append_of_pos hDigits,
    hNone.1, hNone.2, List.append_nil]

/-! ## Readers that go on after a part -/

theorem bind_eq_of_eq_some {α β : Type} {part : Option α} {value : α} (h : part = some value)
    (next : α → Option β) : (part >>= next) = next value := by
  rw [h]
  rfl

end PipelineUpkeep.Text

import PipelineUpkeep.Proofs.DecimalLaws
import PipelineUpkeep.Proofs.NextInstant
import PipelineUpkeep.Time.Rfc3339
/-!
# Instants survive as text

Reading an instant is more lenient than writing one, and each part is written so that the
reader takes this part and no more: numbers are padded to the width that is read, and a
year with a sign ends at the hyphen.  So every instant is read back from its own text,
leap seconds and years outside 0 to 9999 included; and what is read always is an instant.
-/

namespace PipelineUpkeep.Time

open PipelineUpkeep.Text PipelineUpkeep.Cron

/-- The instant exists: it lies in the years that timestamps cover, and only the last
second of a minute is extended by a leap second. -/
def Timestamp.IsValid (t : Timestamp) : Prop :=
  Timestamp.inRange t.second = true ∧
    (t.nanosecond < 1000000000 ∨ (t.second % 60 = 59 ∧ t.nanosecond < 2000000000))

instance (t : Timestamp) : Decidable t.IsValid := by
  unfold Timestamp.IsValid
  infer_instance

/-! ## Parts -/

@[simp]
theorem toList_padded (width n : Nat) : (padded width n).toList = paddedDigits width n := by
  simp [padded]

theorem readNumber?_paddedDigits {width n : Nat} (hWidth : 0 < width) (h : n < 10 ^ width)
    (rest : List Char) : readNumber? width (paddedDigits width n ++ rest) = some (n, rest) := by
  have hDigits : ∀ c ∈ paddedDigits width n, isDigit c = true := fun _ =>
    isDigit_of_mem_paddedDigits
  have hLength := length_paddedDigits hWidth h
  have hTaken : ((paddedDigits width n ++ rest).takeWhile isDigit).take width =
      paddedDigits width n := by
    rw [List.takeWhile_append_of_pos hDigits, List.take_left' hLength]
  simp only [readNumber?, trimStart_digits hDigits (paddedDigits_ne_nil width n), hTaken,
    digitsValue_paddedDigits, List.drop_left]
  simp [paddedDigits_ne_nil]

theorem readSeparator?_self {separator : Char} (h : isBlank separator = false)
    (rest : List Char) : readSeparator? separator (separator :: rest) = some rest := by
  simp [readSeparator?, trimStart, h]

theorem toList_yearText (year : Int) :
    (yearText year).toList =
      if 0 ≤ year ∧ year ≤ 9999 then paddedDigits 4 year.toNat
      else if 0 ≤ year then '+' :: paddedDigits 4 year.toNat
      else '-' :: paddedDigits 4 year.natAbs := by
  unfold yearText
  split
  · simp
  · split <;> simp

theorem readYear?_of_isDigit {c : Char} (h : isDigit c = true) (rest : List Char) :
    readYear? (c :: rest) = (readNumber? 4 (c :: rest)).map fun (year, rest) => (year, rest) := by
  have hTrim : trimStart (c :: rest) = c :: rest := by simp [trimStart, isBlank_of_isDigit h]
  unfold readYear?
  rw [hTrim]
  split
  next hMinus =>
    obtain ⟨rfl, -⟩ := List.cons.inj hMinus
    exact absurd h (by decide)
  next hPlus =>
    obtain ⟨rfl, -⟩ := List.cons.inj hPlus
    exact absurd h (by decide)
  next => rfl

/-- The hyphen ends a year of any number of digits. -/
theorem readYear?_yearText (year : Int) (rest : List Char) :
    readYear? ((yearText year).toList ++ '-' :: rest) = some (year, '-' :: rest) := by
  have hSpan (n : Nat) :
      spanDigits (paddedDigits 4 n ++ '-' :: rest) = (paddedDigits 4 n, '-' :: rest) :=
    spanDigits_digits (fun _ => isDigit_of_mem_paddedDigits) (by rintro c ⟨⟩; rfl)
  rw [toList_yearText]
  split
  next hPlain =>
    have hYear : year.toNat < 10 ^ 4 := by omega
    have hRead := readNumber?_paddedDigits (by decide) hYear ('-' :: rest)
    obtain ⟨first, more, hDigits⟩ := List.exists_cons_of_ne_nil (paddedDigits_ne_nil 4 year.toNat)
    have hFirst : isDigit first = true :=
      isDigit_of_mem_paddedDigits (hDigits ▸ List.mem_cons_self)
    rw [hDigits, List.cons_append] at hRead ⊢
    rw [readYear?_of_isDigit hFirst, hRead]
    simp [hPlain.1]
  next hLong =>
    split
    next hPositive => simp [readYear?, trimStart, isBlank, hSpan, paddedDigits_ne_nil, hPositive]
    next hNegative =>
      have hSign : -|year| = year := by rw [abs_of_neg (by omega), Int.neg_neg]
      simp [readYear?, trimStart, isBlank, hSpan, paddedDigits_ne_nil, hSign]

theorem readFraction?_point {width n : Nat} (hWidth : 0 < width) (hNine : width ≤ 9)
    (h : n < 10 ^ width) {rest : List Char}
    (hRest : ∀ c, rest.head? = some c → isDigit c = false) :
    readFraction? ('.' :: (paddedDigits width n ++ rest)) = some (n * 10 ^ (9 - width), rest) := by
  have hLength := length_paddedDigits hWidth h
  have hTake : (paddedDigits width n).take 9 = paddedDigits width n :=
    List.take_of_length_le (by omega)
  simp [readFraction?, spanDigits_digits (fun _ => isDigit_of_mem_paddedDigits) hRest,
    paddedDigits_ne_nil, hTake, hLength]

theorem readFraction?_fractionText {nanosecond : Nat} (h : nanosecond < 1000000000)
    (rest : List Char) :
    readFraction? ((fractionText nanosecond).toList ++ 'Z' :: rest) =
      some (nanosecond, 'Z' :: rest) := by
  have hRest : ∀ c, ('Z' :: rest).head? = some c → isDigit c = false := by
    rintro c ⟨⟩
    rfl
  unfold fractionText
  split
  next hZero => simp_all [readFraction?]
  next =>
    split
    next hMillis =>
      have hThree : nanosecond / 1000000 < 10 ^ 3 := by omega
      have hRead := readFraction?_point (by decide) (by decide) hThree hRest
      have hExact : nanosecond / 1000000 * 10 ^ (9 - 3) = nanosecond :=
        Nat.div_mul_cancel (Nat.dvd_of_mod_eq_zero (by simpa using hMillis))
      rw [hExact] at hRead
      simpa using hRead
    next =>
      split
      next hMicros =>
        have hSix : nanosecond / 1000 < 10 ^ 6 := by omega
        have hRead := readFraction?_point (by decide) (by decide) hSix hRest
        have hExact : nanosecond / 1000 * 10 ^ (9 - 6) = nanosecond :=
          Nat.div_mul_cancel (Nat.dvd_of_mod_eq_zero (by simpa using hMicros))
        rw [hExact] at hRead
        simpa using hRead
      next =>
        have hAll : nanosecond < 10 ^ 9 := h
        simpa using readFraction?_point (by decide) (by decide) hAll hRest

/-! ## Whole texts -/

/-- The second that is written: a leap second is second 60. -/
def Timestamp.writtenSecond (t : Timestamp) : Nat :=
  if t.nanosecond ≥ 1000000000 then t.secondOfMinute + 1 else t.secondOfMinute

/-- The fraction that is written. -/
def Timestamp.writtenFraction (t : Timestamp) : Nat :=
  if t.nanosecond ≥ 1000000000 then t.nanosecond - 1000000000 else t.nanosecond

theorem Timestamp.toList_toRfc3339 (t : Timestamp) :
    t.toRfc3339.toList =
      (yearText t.date.year).toList ++ '-' :: (paddedDigits 2 t.date.month ++
        '-' :: (paddedDigits 2 t.date.day ++ 'T' :: (paddedDigits 2 t.hour ++
          ':' :: (paddedDigits 2 t.minute ++ ':' :: (paddedDigits 2 t.writtenSecond ++
            ((fractionText t.writtenFraction).toList ++ ['Z'])))))) := by
  simp [toRfc3339, dateText, timeText, clockText, writtenSecond, writtenFraction]

theorem Date.IsValid.day_le {date : Date} (h : date.IsValid) : date.day ≤ 31 :=
  h.2.trans (daysInMonth_le _ _)

/-- What is written says which second is extended and by how much. -/
theorem Timestamp.IsValid.written {t : Timestamp} (h : t.IsValid) :
    t.writtenSecond ≤ 60 ∧ t.writtenFraction < 1000000000 ∧
      (if t.writtenSecond = 60 then 59 else t.writtenSecond) = t.secondOfMinute ∧
      (if t.writtenSecond = 60 then t.writtenFraction + 1000000000 else t.writtenFraction) =
        t.nanosecond := by
  have hMinute : t.secondOfMinute = (t.second % 60).toNat := by
    unfold Timestamp.secondOfMinute Timestamp.secondOfDay
    omega
  have hBound : t.secondOfMinute < 60 := by omega
  unfold writtenSecond writtenFraction
  obtain ⟨-, hNormal | ⟨hLast, hLeap⟩⟩ := h
  · have hNot : ¬ t.nanosecond ≥ 1000000000 := by omega
    have hSmall : ¬ t.secondOfMinute = 60 := by omega
    simp only [hNot, if_false, hSmall]
    exact ⟨hBound.le, hNormal, trivial, trivial⟩
  · by_cases hExtends : t.nanosecond ≥ 1000000000
    · have hSixty : t.secondOfMinute + 1 = 60 := by omega
      simp only [hExtends, if_true, hSixty]
      exact ⟨Nat.le_refl _, by omega, by omega, by omega⟩
    · have hSmall : ¬ t.secondOfMinute = 60 := by omega
      simp only [hExtends, if_false, hSmall]
      exact ⟨by omega, by omega, trivial, trivial⟩

/-- Reading goes through the parts of a text from the left. -/
theorem Timestamp.ofChars?_of_parts {text text₁ text₂ text₃ text₄ text₅ text₆ text₇ text₈ text₉
    text₁₀ text₁₁ text₁₂ : List Char} {date : Date} {offset : Int}
    {hour minute second fraction : Nat}
    (hYear : readYear? text = some (date.year, text₁))
    (hDash : readSeparator? '-' text₁ = some text₂)
    (hMonth : readNumber? 2 text₂ = some (date.month, text₃))
    (hNextDash : readSeparator? '-' text₃ = some text₄)
    (hDay : readNumber? 2 text₄ = some (date.day, 'T' :: text₅))
    (hHour : readNumber? 2 text₅ = some (hour, text₆))
    (hColon : readSeparator? ':' text₆ = some text₇)
    (hMinute : readNumber? 2 text₇ = some (minute, text₈))
    (hNextColon : readSeparator? ':' text₈ = some text₉)
    (hSecond : readNumber? 2 text₉ = some (second, text₁₀))
    (hFraction : readFraction? text₁₀ = some (fraction, text₁₁))
    (hOffset : readOffset? (trimStart text₁₁) = some (offset, text₁₂))
    (hEnd : trimStart text₁₂ = []) (hDate : date.IsValid)
    (hClock : hour < 24 ∧ minute < 60 ∧ second ≤ 60) {localSecond : Int}
    (hLocalSecond : (ofDateTime date hour minute
      (if second = 60 then 59 else second)).second = localSecond)
    (hRange : inRange localSecond = true ∧ inRange (localSecond - offset) = true) :
    ofChars? text =
      some ⟨localSecond - offset, if second = 60 then fraction + 1000000000 else fraction⟩ := by
  refine (bind_eq_of_eq_some hYear _).trans ?_
  refine (bind_eq_of_eq_some hDash _).trans ?_
  refine (bind_eq_of_eq_some hMonth _).trans ?_
  refine (bind_eq_of_eq_some hNextDash _).trans ?_
  refine (bind_eq_of_eq_some hDay _).trans ?_
  refine (bind_eq_of_eq_some rfl _).trans ?_
  refine (bind_eq_of_eq_some hHour _).trans ?_
  refine (bind_eq_of_eq_some hColon _).trans ?_
  refine (bind_eq_of_eq_some hMinute _).trans ?_
  refine (bind_eq_of_eq_some hNextColon _).trans ?_
  refine (bind_eq_of_eq_some hSecond _).trans ?_
  refine (bind_eq_of_eq_some hFraction _).trans ?_
  refine (bind_eq_of_eq_some hOffset _).trans ?_
  simp only [hEnd, List.isEmpty_nil, beq_iff_eq, hDate, hClock, hLocalSecond, hRange,
    and_self, if_true]

/-- An instant is read back from its text. -/
theorem Timestamp.ofString?_toRfc3339 {t : Timestamp} (h : t.IsValid) :
    Timestamp.ofString? t.toRfc3339 = some t := by
  have hDate := isValid_date t
  obtain ⟨-, hMonth⟩ := hDate.month_bounds
  have hDay := hDate.day_le
  obtain ⟨hHour, hMinute, -⟩ := clock_bounds t
  obtain ⟨hSecond, hFraction, hExtended, hNanosecond⟩ := h.written
  have hTwo {n : Nat} (hn : n < 100) (rest : List Char) :
      readNumber? 2 (paddedDigits 2 n ++ rest) = some (n, rest) :=
    readNumber?_paddedDigits (by decide) hn rest
  have hLocal : (ofDateTime t.date t.hour t.minute
      (if t.writtenSecond = 60 then 59 else t.writtenSecond)).second = t.second := by
    rw [hExtended, second_ofDateTime, ← second_eq]
  have hRead := ofChars?_of_parts (readYear?_yearText _ _)
    (readSeparator?_self (by decide) _) (hTwo (by omega) _) (readSeparator?_self (by decide) _)
    (hTwo (by omega) _) (hTwo (by omega) _) (readSeparator?_self (by decide) _)
    (hTwo (by omega) _) (readSeparator?_self (by decide) _) (hTwo (by omega) _)
    (readFraction?_fractionText hFraction []) rfl rfl hDate ⟨by omega, by omega, hSecond⟩ hLocal
    ⟨h.1, (Int.sub_zero t.second).symm ▸ h.1⟩
  rw [ofString?, toList_toRfc3339, hRead, Int.sub_zero, hNanosecond]

/-! ## What is read is an instant -/

theorem readFraction?_lt {text rest : List Char} {fraction : Nat}
    (h : readFraction? text = some (fraction, rest)) : fraction < 1000000000 := by
  unfold readFraction? at h
  split at h
  next digitsAndRest =>
    dsimp only at h
    split at h
    · cases h
    · obtain ⟨rfl, -⟩ := Prod.mk.inj (Option.some.inj h)
      have hDigits : ∀ c ∈ (spanDigits digitsAndRest).1.take 9, isDigit c = true := by
        intro c hc
        exact List.all_eq_true.1 List.all_takeWhile c (List.mem_of_mem_take hc)
      have hNine : ((spanDigits digitsAndRest).1.take 9).length ≤ 9 := List.length_take_le _ _
      have hValue := digitsValue_lt hDigits
      generalize ((spanDigits digitsAndRest).1.take 9).length = width at hNine hValue ⊢
      calc digitsValue ((spanDigits digitsAndRest).1.take 9) * 10 ^ (9 - width)
        _ < 10 ^ width * 10 ^ (9 - width) :=
            Nat.mul_lt_mul_of_pos_right hValue (Nat.pow_pos (by decide))
        _ = 10 ^ 9 := by rw [← Nat.pow_add, Nat.add_sub_cancel' hNine]
  next =>
    obtain ⟨rfl, -⟩ := Prod.mk.inj (Option.some.inj h)
    decide

/-- An offset is a number of whole minutes. -/
theorem readOffset?_mod {text rest : List Char} {offset : Int}
    (h : readOffset? text = some (offset, rest)) : offset % 60 = 0 := by
  unfold readOffset? at h
  dsimp only at h
  split at h
  -- Hours and minutes with a sign.
  case h_3 | h_4 | h_5 =>
    obtain ⟨⟨hours, _⟩, -, h⟩ := Option.bind_eq_some_iff.1 h
    obtain ⟨⟨minutes, _⟩, -, h⟩ := Option.bind_eq_some_iff.1 h
    dsimp only at h
    split at h
    · obtain ⟨rfl, -⟩ := Prod.mk.inj (Option.some.inj h)
      simp only [if_true, Bool.false_eq_true, if_false]
      omega
    · cases h
  case h_6 =>
    split at h
    · obtain ⟨rfl, -⟩ := Prod.mk.inj (Option.some.inj h)
      rfl
    · cases h
  all_goals
    cases h
    try rfl

theorem Timestamp.isValid_of_ofString? {text : String} {t : Timestamp}
    (h : Timestamp.ofString? text = some t) : t.IsValid := by
  obtain ⟨⟨year, _⟩, -, h⟩ := Option.bind_eq_some_iff.1 h
  obtain ⟨_, -, h⟩ := Option.bind_eq_some_iff.1 h
  obtain ⟨⟨month, _⟩, -, h⟩ := Option.bind_eq_some_iff.1 h
  obtain ⟨_, -, h⟩ := Option.bind_eq_some_iff.1 h
  obtain ⟨⟨day, _⟩, -, h⟩ := Option.bind_eq_some_iff.1 h
  dsimp only at h
  -- Whatever stands between date and time, the rest is read in the same way.
  split at h
  all_goals
    obtain ⟨_, -, h⟩ := Option.bind_eq_some_iff.1 h
    obtain ⟨⟨hour, _⟩, -, h⟩ := Option.bind_eq_some_iff.1 h
    obtain ⟨_, -, h⟩ := Option.bind_eq_some_iff.1 h
    obtain ⟨⟨minute, _⟩, -, h⟩ := Option.bind_eq_some_iff.1 h
    obtain ⟨_, -, h⟩ := Option.bind_eq_some_iff.1 h
    obtain ⟨⟨second, _⟩, -, h⟩ := Option.bind_eq_some_iff.1 h
    obtain ⟨⟨fraction, _⟩, hFraction, h⟩ := Option.bind_eq_some_iff.1 h
    obtain ⟨⟨offset, _⟩, hOffset, h⟩ := Option.bind_eq_some_iff.1 h
    obtain ⟨-, h⟩ := Option.ite_none_right_eq_some.1 h
    obtain ⟨⟨-, hRange⟩, h⟩ := Option.ite_none_right_eq_some.1 h
    obtain rfl := Option.some.inj h
    have hBound := readFraction?_lt hFraction
    have hMinutes := readOffset?_mod hOffset
    refine ⟨hRange, ?_⟩
    by_cases hLeap : second = 60
    · simp only [hLeap, second_ofDateTime, beq_self_eq_true, if_true]
      omega
    · simp only [beq_iff_eq, hLeap, if_false]
      omega

end PipelineUpkeep.Time

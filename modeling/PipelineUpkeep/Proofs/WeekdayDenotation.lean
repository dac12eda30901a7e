import Mathlib.Data.List.Forall2
import PipelineUpkeep.Proofs.WrittenValues
import PipelineUpkeep.Schedule.Weekdays
/-!
# What a weekday field denotes

The weekday field of a five-field expression denotes days from Sunday as zero.  `ItemDenotes`
says which days an item between two commas denotes, by the forms that an item can have: every
day, one day, the days of a range, or every so many of them.  Whatever field can be read is
expanded to exactly these days, and the text of the expansion, in which days count from one, is
read as exactly these days again.
-/

namespace PipelineUpkeep

open Text

namespace Text

theorem splitAtFirst?_eq_none_iff {separator : Char} {text : List Char} :
    splitAtFirst? separator text = none ↔ separator ∉ text := by
  induction text with
  | nil => simp [splitAtFirst?]
  | cons c rest ih =>
      by_cases hSame : c = separator
      · simp [splitAtFirst?, hSame]
      · simp [splitAtFirst?, hSame, ih, Ne.symm hSame]

theorem splitAtFirst?_append {separator : Char} {front : List Char} (h : separator ∉ front)
    (back : List Char) :
    splitAtFirst? separator (front ++ separator :: back) = some (front, back) := by
  induction front with
  | nil => simp [splitAtFirst?]
  | cons c rest ih =>
      rw [List.mem_cons, not_or] at h
      simp [splitAtFirst?, Ne.symm h.1, ih h.2]

/-- A number as it may be written: digits, perhaps zeros in front, perhaps a plus sign. -/
def WritesNumber (text : List Char) (n : Nat) : Prop :=
  ∃ digits, (text = digits ∨ text = '+' :: digits) ∧ digits ≠ [] ∧
    (∀ c ∈ digits, isDigit c = true) ∧ digitsValue digits = n

theorem readNat?_eq_some_iff {text : List Char} {n : Nat} :
    readNat? text = some n ↔
      text ≠ [] ∧ (∀ c ∈ text, isDigit c = true) ∧ digitsValue text = n := by
  constructor
  · intro h
    obtain ⟨hSome, hDigits, hValue⟩ := readNat?_eq_some h
    exact ⟨hSome, List.all_eq_true.mp hDigits, hValue⟩
  · rintro ⟨hSome, hDigits, rfl⟩
    simp [readNat?, hSome, List.all_eq_true.mpr hDigits]

theorem readNatUpTo?_plus (greatest : Nat) (rest : List Char) :
    readNatUpTo? greatest ('+' :: rest) = (readNat? rest).filter (· ≤ greatest) := by
  cases hNumber : readNat? rest <;> simp [readNatUpTo?, hNumber, Option.filter]

theorem readNatUpTo?_of_no_plus (greatest : Nat) {text : List Char}
    (hPlus : ∀ rest, text ≠ '+' :: rest) :
    readNatUpTo? greatest text = (readNat? text).filter (· ≤ greatest) := by
  cases hNumber : readNat? text <;> simp [readNatUpTo?, hNumber, Option.filter]

theorem readNatUpTo?_eq_some_iff {greatest : Nat} {text : List Char} {n : Nat} :
    readNatUpTo? greatest text = some n ↔ WritesNumber text n ∧ n ≤ greatest := by
  by_cases hPlus : ∃ rest, text = '+' :: rest
  · obtain ⟨rest, rfl⟩ := hPlus
    rw [readNatUpTo?_plus, Option.filter_eq_some_iff, decide_eq_true_eq, readNat?_eq_some_iff]
    refine and_congr_left fun _ => ⟨fun h => ⟨rest, Or.inr rfl, h⟩, ?_⟩
    rintro ⟨digits, rfl | hText, h⟩
    · exact absurd (h.2.1 '+' List.mem_cons_self) (by decide)
    · rwa [(List.cons.inj hText).2]
  · rw [readNatUpTo?_of_no_plus greatest (not_exists.mp hPlus), Option.filter_eq_some_iff,
      decide_eq_true_eq, readNat?_eq_some_iff]
    refine and_congr_left fun _ => ⟨fun h => ⟨text, Or.inl rfl, h⟩, ?_⟩
    rintro ⟨digits, rfl | rfl, h⟩
    · exact h
    · exact absurd ⟨digits, rfl⟩ hPlus

theorem WritesNumber.unique {text : List Char} {n other : Nat} (h : WritesNumber text n)
    (hOther : WritesNumber text other) : n = other := by
  have hRead := readNatUpTo?_eq_some_iff.mpr ⟨h, Nat.le_max_left n other⟩
  have hReadOther := readNatUpTo?_eq_some_iff.mpr ⟨hOther, Nat.le_max_right n other⟩
  exact Option.some.inj (hRead.symm.trans hReadOther)

end Text

namespace Cron

/-- What goes on after a part gives a result only if the part does. -/
theorem exists_of_bind_eq_ok {ε α β : Type} {part : Except ε α} {next : α → Except ε β}
    {result : β} (h : (part >>= next) = .ok result) :
    ∃ value, part = .ok value ∧ next value = .ok result := by
  cases part with
  | error error => cases h
  | ok value => exact ⟨value, rfl, h⟩

/-! ## Days and ranges of days -/

/-- A day from 0 to 7, as a number or as the name of a day in any case. -/
inductive NamesDay : List Char → Nat → Prop where
  | number {token : List Char} {day : Nat} (hToken : WritesNumber token day) (hDay : day ≤ 7) :
      NamesDay token day
  | name {token : List Char} {day : Nat}
      (hName : weekdayNames[day]? = some (token.map Char.toUpper)) : NamesDay token day

/-- The first and the last day of an item without its step: of the whole week, of a range, of
one day, and of the range that one day starts if a step follows. -/
inductive SpansDays : Bool → List Char → Nat → Nat → Prop where
  | all {hasStep : Bool} : SpansDays hasStep ['*'] 0 6
  | between {hasStep : Bool} {front back : List Char} {first last : Nat}
      (hFirst : NamesDay front first) (hLast : NamesDay back last) :
      SpansDays hasStep (front ++ '-' :: back) first last
  | day {token : List Char} {day : Nat} (h : NamesDay token day) : SpansDays false token day day
  | fromDay {token : List Char} {day : Nat} (h : NamesDay token day) : SpansDays true token day 6

/-- The days that an item denotes.  Seven is Sunday again. -/
inductive ItemDenotes : List Char → Nat → Prop where
  | questionMark {day : Nat} (hDay : day ≤ 6) : ItemDenotes ['?'] day
  | plain {item : List Char} {first last day : Nat} (hSpan : SpansDays false item first last)
      (hDay : first ≤ day ∧ day ≤ last) : ItemDenotes item (day % 7)
  | stepped {range text : List Char} {first last step day : Nat}
      (hSpan : SpansDays true range first last) (hStep : WritesNumber text step)
      (hPositive : 0 < step) (hDay : first ≤ day ∧ day ≤ last) (hNth : step ∣ day - first) :
      ItemDenotes (range ++ '/' :: text) (day % 7)

/-- The days that a field denotes are those of its items. -/
def FieldDenotes (field : List Char) (day : Nat) : Prop :=
  ∃ item ∈ field.splitOn ',', ItemDenotes item day

/-- The characters that numbers and names of days consist of are none with a meaning. -/
theorem NamesDay.plain_chars {token : List Char} {day : Nat} (h : NamesDay token day) :
    token ≠ [] ∧ '*' ∉ token ∧ '-' ∉ token ∧ '/' ∉ token := by
  cases h with
  | number hToken hDay =>
      obtain ⟨digits, hText, hSome, hDigits, -⟩ := hToken
      have hNone (c : Char) (hPlus : c ≠ '+') (hDigit : isDigit c = false) : c ∉ token := by
        have hNoDigit : c ∉ digits := fun hC => by simp [hDigits c hC] at hDigit
        rcases hText with rfl | rfl
        · exact hNoDigit
        · simp [hPlus, hNoDigit]
      refine ⟨?_, hNone '*' (by decide) rfl, hNone '-' (by decide) rfl, hNone '/' (by decide) rfl⟩
      rcases hText with rfl | rfl
      · exact hSome
      · simp
  | name hName =>
      have hLetters : token.map Char.toUpper ∈ weekdayNames := List.mem_of_getElem? hName
      have hNone : ∀ letters ∈ weekdayNames, letters ≠ [] ∧ '*'.toUpper ∉ letters ∧
          '-'.toUpper ∉ letters ∧ '/'.toUpper ∉ letters := by decide
      obtain ⟨hSome, hStar, hDash, hSlash⟩ := hNone _ hLetters
      exact ⟨fun hEmpty => hSome (by rw [hEmpty]; rfl), fun hC => hStar (List.mem_map_of_mem hC),
        fun hC => hDash (List.mem_map_of_mem hC), fun hC => hSlash (List.mem_map_of_mem hC)⟩

/-- The name of a day is not a number. -/
theorem readNatUpTo?_of_name {token : List Char} (hName : token.map Char.toUpper ∈ weekdayNames)
    (greatest : Nat) : readNatUpTo? greatest token = none := by
  rw [Option.eq_none_iff_forall_ne_some]
  intro n hNumber
  obtain ⟨digits, hText, hSome, hDigits, -⟩ := (readNatUpTo?_eq_some_iff.mp hNumber).1
  obtain ⟨first, rest, hToken, hFirst⟩ : ∃ first rest, token = first :: rest ∧
      (first = '+' ∨ isDigit first = true) := by
    rcases hText with rfl | rfl
    · obtain ⟨first, rest, rfl⟩ := List.exists_cons_of_ne_nil hSome
      exact ⟨first, rest, rfl, Or.inr (hDigits first List.mem_cons_self)⟩
    · exact ⟨'+', digits, rfl, Or.inl rfl⟩
  -- The first letter of a name is a capital one, which no sign and no digit becomes.
  have hLetters : ∀ letters ∈ weekdayNames, 65 ≤ (letters.headD ' ').toNat := by decide
  have hCapital : 65 ≤ first.toUpper.toNat := by
    have hHead := hLetters _ hName
    rwa [hToken] at hHead
  rcases hFirst with rfl | hDigit
  · exact absurd hCapital (by decide)
  · simp only [isDigit, Bool.and_eq_true, decide_eq_true_eq] at hDigit
    have hSame : first.toUpper = first := by
      refine dif_neg fun hLower => ?_
      have hLow := UInt32.le_iff_toNat_le.mp hLower.1
      change 97 ≤ first.toNat at hLow
      omega
    rw [hSame] at hCapital
    omega

theorem readWeekday_eq_ok_iff {token : List Char} {day : Nat} :
    readWeekday token = .ok day ↔ NamesDay token day := by
  constructor
  · intro h
    unfold readWeekday at h
    split at h
    · rename_i number hNumber
      split at h
      · rename_i hDay
        rw [← Except.ok.inj h]
        exact .number (readNatUpTo?_eq_some_iff.mp hNumber).1 hDay
      · cases h
    · split at h
      · rename_i found hFound
        rw [← Except.ok.inj h]
        obtain ⟨hLength, hSame, -⟩ := List.findIdx?_eq_some_iff_getElem.mp hFound
        refine .name ?_
        rw [List.getElem?_eq_getElem hLength, eq_of_beq hSame]
      · cases h
  · intro h
    cases h with
    | number hToken hDay =>
        have hBound : day ≤ bound32 - 1 := Nat.le_trans hDay (by decide)
        rw [readWeekday, readNatUpTo?_eq_some_iff.mpr ⟨hToken, hBound⟩]
        exact if_pos hDay
    | name hName =>
        have hFound : ∀ day < 7, ∀ letters ∈ weekdayNames[day]?,
            weekdayNames.findIdx? (· == letters) = some day := by decide
        have hLength : day < 7 := (List.getElem?_eq_some_iff.mp hName).1
        rw [readWeekday, readNatUpTo?_of_name (List.mem_of_getElem? hName),
          hFound day hLength _ hName]

theorem weekdayEnds_eq_ok_iff {range : List Char} {hasStep : Bool} {first last : Nat} :
    weekdayEnds range hasStep = .ok (first, last) ↔ SpansDays hasStep range first last := by
  constructor
  · intro h
    unfold weekdayEnds at h
    split at h
    · rename_i hAll
      obtain ⟨rfl, rfl⟩ := Prod.mk.inj (Except.ok.inj h)
      exact hAll ▸ .all
    · split at h
      · rename_i front back hSplit
        rw [splitAtFirst?_eq_some hSplit]
        obtain ⟨start, hFront, h⟩ := exists_of_bind_eq_ok h
        obtain ⟨stop, hBack, h⟩ := exists_of_bind_eq_ok h
        obtain ⟨rfl, rfl⟩ := Prod.mk.inj (Except.ok.inj h)
        exact .between (readWeekday_eq_ok_iff.mp hFront) (readWeekday_eq_ok_iff.mp hBack)
      · obtain ⟨day, hDay, h⟩ := exists_of_bind_eq_ok h
        obtain ⟨rfl, rfl⟩ := Prod.mk.inj (Except.ok.inj h)
        cases hasStep with
        | false => exact .day (readWeekday_eq_ok_iff.mp hDay)
        | true => exact .fromDay (readWeekday_eq_ok_iff.mp hDay)
  · have hToken {token : List Char} {day : Nat} (h : NamesDay token day) :
        weekdayEnds token hasStep = .ok (day, if hasStep then 6 else day) := by
      obtain ⟨-, hStar, hDash, -⟩ := h.plain_chars
      have hOther : token ≠ ['*'] := fun hSame => hStar (by simp [hSame])
      rw [weekdayEnds, if_neg hOther, splitAtFirst?_eq_none_iff.mpr hDash]
      simp only [readWeekday_eq_ok_iff.mpr h]
      rfl
    intro h
    cases h with
    | all => rfl
    | @between _ front back _ _ hFirst hLast =>
        obtain ⟨-, -, hDash, -⟩ := hFirst.plain_chars
        have hOther : front ++ '-' :: back ≠ ['*'] := fun hSame => by
          have hMem : '-' ∈ ['*'] := hSame ▸ List.mem_append_right front List.mem_cons_self
          exact absurd hMem (by decide)
        rw [weekdayEnds, if_neg hOther, splitAtFirst?_append hDash]
        simp only [readWeekday_eq_ok_iff.mpr hFirst, readWeekday_eq_ok_iff.mpr hLast]
        rfl
    | day h => exact hToken h
    | fromDay h => exact hToken h

theorem SpansDays.slash_not_mem {range : List Char} {hasStep : Bool} {first last : Nat}
    (h : SpansDays hasStep range first last) : '/' ∉ range := by
  cases h with
  | all => decide
  | between hFirst hLast => simp [hFirst.plain_chars.2.2.2, hLast.plain_chars.2.2.2]
  | day h => exact h.plain_chars.2.2.2
  | fromDay h => exact h.plain_chars.2.2.2

/-! ## Items -/

theorem mem_steppedDays_iff {first last step day : Nat} :
    day ∈ steppedDays first last step ↔ (first ≤ day ∧ day ≤ last) ∧ step ∣ day - first := by
  rw [steppedDays, List.mem_filter, List.mem_range'_1, beq_iff_eq, Nat.dvd_iff_mod_eq_zero]
  omega

/-- What an item is expanded to, by its two parts. -/
theorem weekdayItemDays_eq {item range : List Char} {step : Option Nat} {first last : Nat}
    (hSplit : splitStep item = .ok (range, step))
    (hSpan : SpansDays step.isSome range first last) :
    weekdayItemDays item =
      if first > last then .error (.range range)
      else .ok ((steppedDays first last (step.getD 1)).map (· % 7)) := by
  rw [weekdayItemDays, hSplit]
  change (weekdayEnds range step.isSome >>= _) = _
  rw [weekdayEnds_eq_ok_iff.mpr hSpan]
  rfl

theorem splitStep_of_not_mem {item : List Char} (h : '/' ∉ item) :
    splitStep item = .ok (item, none) := by
  rw [splitStep, splitAtFirst?_eq_none_iff.mpr h]

theorem splitStep_append {range text : List Char} {step : Nat} (hRange : '/' ∉ range)
    (hStep : WritesNumber text step) (hPositive : 0 < step) :
    splitStep (range ++ '/' :: text) =
      if step ≤ bound64 - 1 then .ok (range, some step)
      else .error (.step (range ++ '/' :: text)) := by
  rw [splitStep, splitAtFirst?_append hRange]
  obtain ⟨n, rfl⟩ := Nat.exists_eq_add_of_lt hPositive
  rw [Nat.zero_add] at hStep ⊢
  by_cases hBound : n + 1 ≤ bound64 - 1
  · rw [if_pos hBound]
    simp only [readNatUpTo?_eq_some_iff.mpr ⟨hStep, hBound⟩]
  · rw [if_neg hBound]
    have hNone : readNatUpTo? (bound64 - 1) text = none := by
      rw [Option.eq_none_iff_forall_ne_some]
      intro other hOther
      obtain ⟨hWrites, hLe⟩ := readNatUpTo?_eq_some_iff.mp hOther
      exact hBound (hStep.unique hWrites ▸ hLe)
    simp only [hNone]

/-- An item that can be split has no step, or a positive one behind its slash. -/
theorem splitStep_cases {item range : List Char} {step : Option Nat}
    (h : splitStep item = .ok (range, step)) :
    (step = none ∧ range = item) ∨
      ∃ text n, step = some n ∧ item = range ++ '/' :: text ∧ WritesNumber text n ∧ 0 < n := by
  unfold splitStep at h
  split at h
  · obtain ⟨rfl, rfl⟩ := Prod.mk.inj (Except.ok.inj h)
    exact Or.inl ⟨rfl, rfl⟩
  · rename_i front text hSplit
    split at h
    · rename_i n hNumber
      obtain ⟨rfl, rfl⟩ := Prod.mk.inj (Except.ok.inj h)
      exact Or.inr ⟨text, n + 1, rfl, splitAtFirst?_eq_some hSplit,
        (readNatUpTo?_eq_some_iff.mp hNumber).1, Nat.succ_pos n⟩
    · cases h

/-- The parts of an item that can be read. -/
theorem exists_parts_of_weekdayItemDays {item : List Char} {days : List Nat}
    (h : weekdayItemDays item = .ok days) :
    ∃ range step first last, splitStep item = .ok (range, step) ∧
      SpansDays step.isSome range first last ∧ first ≤ last ∧
      days = (steppedDays first last (step.getD 1)).map (· % 7) := by
  obtain ⟨⟨range, step⟩, hSplit, hRest⟩ := exists_of_bind_eq_ok h
  obtain ⟨⟨first, last⟩, hEnds, -⟩ := exists_of_bind_eq_ok hRest
  have hSpan := weekdayEnds_eq_ok_iff.mp hEnds
  rw [weekdayItemDays_eq hSplit hSpan] at h
  split at h
  · cases h
  · rename_i hOrder
    exact ⟨range, step, first, last, hSplit, hSpan, Nat.le_of_not_lt hOrder,
      (Except.ok.inj h).symm⟩

/-- An item is expanded to the days that it denotes. -/
theorem mem_weekdayItemDays_iff {item : List Char} {days : List Nat}
    (h : weekdayItemDays item = .ok days) (day : Nat) : day ∈ days ↔ ItemDenotes item day := by
  constructor
  · intro hDay
    obtain ⟨range, step, first, last, hSplit, hSpan, -, rfl⟩ := exists_parts_of_weekdayItemDays h
    obtain ⟨walked, hWalked, rfl⟩ := List.mem_map.mp hDay
    obtain ⟨hRange, hNth⟩ := mem_steppedDays_iff.mp hWalked
    rcases splitStep_cases hSplit with ⟨rfl, rfl⟩ | ⟨text, n, rfl, rfl, hStep, hPositive⟩
    · exact .plain hSpan hRange
    · exact .stepped hSpan hStep hPositive hRange hNth
  · intro hDenotes
    cases hDenotes with
    | questionMark hDay => cases h
    | plain hSpan hDay =>
        rw [weekdayItemDays_eq (splitStep_of_not_mem hSpan.slash_not_mem) hSpan,
          if_neg (by omega)] at h
        rw [← Except.ok.inj h]
        exact List.mem_map_of_mem (mem_steppedDays_iff.mpr ⟨hDay, Nat.one_dvd _⟩)
    | @stepped range text _ _ step _ hSpan hStep hPositive hDay hNth =>
        have hSplit := splitStep_append hSpan.slash_not_mem hStep hPositive
        by_cases hBound : step ≤ bound64 - 1
        · rw [if_pos hBound] at hSplit
          rw [weekdayItemDays_eq hSplit hSpan, if_neg (by omega)] at h
          rw [← Except.ok.inj h]
          exact List.mem_map_of_mem (mem_steppedDays_iff.mpr ⟨hDay, hNth⟩)
        · rw [if_neg hBound] at hSplit
          rw [weekdayItemDays, hSplit] at h
          cases h

/-! ## Fields -/

theorem ne_nil_of_weekdayItemDays {item : List Char} {days : List Nat}
    (h : weekdayItemDays item = .ok days) : days ≠ [] := by
  obtain ⟨range, step, first, last, -, -, hOrder, rfl⟩ := exists_parts_of_weekdayItemDays h
  have hFirst : first ∈ steppedDays first last (step.getD 1) :=
    mem_steppedDays_iff.mpr ⟨⟨Nat.le_refl first, hOrder⟩, by simp⟩
  exact List.ne_nil_of_mem (List.mem_map_of_mem hFirst)

theorem ItemDenotes.le_six {item : List Char} {day : Nat} (h : ItemDenotes item day) :
    day ≤ 6 := by
  cases h <;> omega

theorem forall₂_of_mapM_eq_ok {items : List (List Char)} {results : List (List Nat)}
    (h : items.mapM weekdayItemDays = .ok results) :
    List.Forall₂ (fun item days => weekdayItemDays item = .ok days) items results := by
  induction items generalizing results with
  | nil =>
      obtain rfl := Except.ok.inj h
      exact .nil
  | cons item rest ih =>
      rw [List.mapM_cons] at h
      obtain ⟨days, hItem, h⟩ := exists_of_bind_eq_ok h
      obtain ⟨more, hRest, h⟩ := exists_of_bind_eq_ok h
      obtain rfl := Except.ok.inj h
      exact .cons hItem (ih hRest)

/-- How a field that can be read is expanded. -/
theorem ofChars_cases {field : List Char} {expanded : WeekdayField}
    (h : WeekdayField.ofChars field = .ok expanded) :
    (∃ mark, (mark = '*' ∨ mark = '?') ∧ field = [mark] ∧ expanded = .every mark) ∨
      ∃ sets, List.Forall₂ (fun item days => weekdayItemDays item = .ok days)
          (field.splitOn ',') sets ∧
        expanded = .days ((List.range 7).filter fun day => sets.any (·.contains day)) := by
  unfold WeekdayField.ofChars at h
  split at h
  · rename_i hStar
    exact Or.inl ⟨'*', Or.inl rfl, hStar, (Except.ok.inj h).symm⟩
  · split at h
    · rename_i hQuestion
      exact Or.inl ⟨'?', Or.inr rfl, hQuestion, (Except.ok.inj h).symm⟩
    · obtain ⟨sets, hSets, h⟩ := exists_of_bind_eq_ok h
      exact Or.inr ⟨sets, forall₂_of_mapM_eq_ok hSets, (Except.ok.inj h).symm⟩

theorem toChars_days (numbers : List Nat) :
    (WeekdayField.days numbers).toChars =
      [','].intercalate ((numbers.map (· + 1)).map natDigits) := by
  rw [WeekdayField.toChars, List.map_map]
  rfl

/-- The text of an expanded weekday field is one word. -/
theorem unbroken_toChars {field : List Char} {expanded : WeekdayField}
    (h : WeekdayField.ofChars field = .ok expanded) : Unbroken expanded.toChars := by
  rcases ofChars_cases h with ⟨mark, hMark, -, rfl⟩ | ⟨sets, -, rfl⟩
  · intro c hC
    rw [List.mem_singleton.mp hC]
    rcases hMark with rfl | rfl <;> rfl
  · rw [toChars_days]
    exact unbroken_intercalate_natDigits _

/-- The text of expanded days is read as these days, counted from one. -/
theorem exists_readField?_days {numbers : List Nat} (hSome : numbers ≠ [])
    (hNumbers : ∀ day ∈ numbers, day ≤ 6) :
    ∃ values, readField? .daysOfWeek (WeekdayField.days numbers).toChars = some (values, []) ∧
      ∀ day ≤ 6, day + 1 ∈ values ↔ day ∈ numbers := by
  have hAdmits : ∀ value ∈ numbers.map (· + 1), FieldRange.daysOfWeek.admits value = true := by
    intro value hValue
    obtain ⟨day, hDay, rfl⟩ := List.mem_map.mp hValue
    rw [FieldRange.admits, Bool.and_eq_true, decide_eq_true_eq, decide_eq_true_eq]
    exact ⟨Nat.succ_pos day, Nat.succ_le_succ (hNumbers day hDay)⟩
  refine ⟨_, toChars_days numbers ▸
    readField?_intercalate (by simp [hSome]) hAdmits (by decide), ?_⟩
  intro day hDay
  have hRange : day + 1 ∈ FieldRange.daysOfWeek.values :=
    (FieldRange.mem_between_iff _ _ _).mpr ⟨Nat.succ_pos day, Nat.succ_le_succ hDay⟩
  simp [hRange]

/-- The items of a field denote the days that they are expanded to. -/
theorem exists_mem_sets_iff {items : List (List Char)} {sets : List (List Nat)}
    (h : List.Forall₂ (fun item days => weekdayItemDays item = .ok days) items sets) (day : Nat) :
    (∃ days ∈ sets, day ∈ days) ↔ ∃ item ∈ items, ItemDenotes item day := by
  induction h with
  | nil => simp
  | cons hItem _ ih => simp [ih, mem_weekdayItemDays_iff hItem]

/-- A field whose items can be read denotes some day. -/
theorem exists_fieldDenotes {field : List Char} {sets : List (List Nat)}
    (h : List.Forall₂ (fun item days => weekdayItemDays item = .ok days)
      (field.splitOn ',') sets) : ∃ day ≤ 6, FieldDenotes field day := by
  cases hItems : field.splitOn ',' with
  | nil => exact absurd hItems (List.splitOn_ne_nil ',' field)
  | cons item rest =>
      rw [hItems] at h
      cases h with
      | cons hItem _ =>
          obtain ⟨day, hDay⟩ := List.exists_mem_of_ne_nil _ (ne_nil_of_weekdayItemDays hItem)
          have hDenotes := (mem_weekdayItemDays_iff hItem day).mp hDay
          exact ⟨day, hDenotes.le_six, item, by simp [hItems], hDenotes⟩

/-- Whatever weekday field can be read, its expansion is read as the days that it denotes. -/
theorem exists_readField?_toChars {field : List Char} {expanded : WeekdayField}
    (h : WeekdayField.ofChars field = .ok expanded) :
    ∃ values, readField? .daysOfWeek expanded.toChars = some (values, []) ∧
      ∀ day ≤ 6, day + 1 ∈ values ↔ FieldDenotes field day := by
  rcases ofChars_cases h with ⟨mark, hMark, rfl, rfl⟩ | ⟨sets, hSets, rfl⟩
  · have hAll : ∀ day ≤ 6, day + 1 ∈ FieldRange.daysOfWeek.values := by decide
    rcases hMark with rfl | rfl
    · refine ⟨FieldRange.daysOfWeek.values, rfl, fun day hDay => iff_of_true (hAll day hDay) ?_⟩
      refine ⟨['*'], List.mem_singleton_self _, ?_⟩
      have hPlain := ItemDenotes.plain .all ⟨Nat.zero_le day, hDay⟩
      rwa [Nat.mod_eq_of_lt (by omega)] at hPlain
    · refine ⟨FieldRange.daysOfWeek.values, rfl, fun day hDay => iff_of_true (hAll day hDay) ?_⟩
      exact ⟨['?'], List.mem_singleton_self _, .questionMark hDay⟩
  · have hMem (day : Nat) (hDay : day ≤ 6) :
        day ∈ (List.range 7).filter (fun day => sets.any (·.contains day)) ↔
          FieldDenotes field day := by
      rw [FieldDenotes, ← exists_mem_sets_iff hSets]
      simp only [List.mem_filter, List.mem_range, List.any_eq_true, List.contains_iff_mem]
      exact and_iff_right (by omega)
    have hSome : (List.range 7).filter (fun day => sets.any (·.contains day)) ≠ [] := by
      obtain ⟨day, hDay, hDenotes⟩ := exists_fieldDenotes hSets
      exact List.ne_nil_of_mem ((hMem day hDay).mpr hDenotes)
    obtain ⟨values, hValues, hDays⟩ := exists_readField?_days hSome fun day hDay =>
      Nat.le_of_lt_succ (List.mem_range.mp (List.mem_filter.mp hDay).1)
    exact ⟨values, hValues, fun day hDay => (hDays day hDay).trans (hMem day hDay)⟩

end Cron

end PipelineUpkeep

import PipelineUpkeep.Proofs.FieldLocality
import PipelineUpkeep.Proofs.FirstListedInstant
import PipelineUpkeep.Proofs.StoredInstants
import PipelineUpkeep.Proofs.WeekdayDenotation
/-!
# The runs of five-field expressions

An expression of five words is read as a text of six fields.  If each of its first four words is
a field by itself, these are the second zero, the four words and the days that the fifth word
denotes, and no year is left out.  The next run of a schedule is then the first whole minute
after the given instant that all five fields let through, and there is none only if no such
minute comes up to the end of the last year of cron expressions.

A word need not be a field by itself for the text to be read, though: a word may be read as two
fields, and what follows it counts for another unit than the one of its place.
-/

namespace PipelineUpkeep

open Text Time

namespace Cron

/-! ## Words -/

theorem no_blank_of_mem_wordsFrom {text current word : List Char}
    (hCurrent : ∀ c ∈ current, isBlank c = false) (h : word ∈ wordsFrom current text) :
    ∀ c ∈ word, isBlank c = false := by
  induction text generalizing current with
  | nil =>
      simp only [wordsFrom] at h
      split at h
      · cases h
      · rw [List.mem_singleton.mp h]
        exact fun c hC => hCurrent c (List.mem_reverse.mp hC)
  | cons c rest ih =>
      simp only [wordsFrom] at h
      split at h
      · split at h
        · exact ih (fun _ hNone => absurd hNone List.not_mem_nil) h
        · rcases List.mem_cons.mp h with rfl | hRest
          · exact fun d hD => hCurrent d (List.mem_reverse.mp hD)
          · exact ih (fun _ hNone => absurd hNone List.not_mem_nil) hRest
      · rename_i hBlank
        refine ih (fun d hD => ?_) h
        rcases List.mem_cons.mp hD with rfl | hOld
        · exact Bool.not_eq_true _ ▸ hBlank
        · exact hCurrent d hOld

theorem unbroken_of_mem_words {text word : List Char} (h : word ∈ words text) :
    Unbroken word :=
  unbroken_of_no_blank <|
    no_blank_of_mem_wordsFrom (fun _ hNone => absurd hNone List.not_mem_nil) h

/-! ## Six fields from five words -/

/-- No item begins with a mark. -/
theorem readItem?_of_isMark (questionMark : Bool) {mark : Char} (h : isMark mark = true)
    (rest : List Char) : readItem? questionMark (mark :: rest) = none := by
  simp only [isMark, Bool.or_eq_true, beq_iff_eq] at h
  rcases h with (rfl | rfl) | rfl <;> cases questionMark <;> rfl

/-- A field, and whatever comes behind it, may follow another field. -/
theorem isNext_append {range : FieldRange} {word rest : List Char} {values : List Nat}
    (hWord : Unbroken word) (h : readField? range word = some (values, rest)) (more : List Char) :
    IsNext (word ++ more) := by
  obtain ⟨⟨items, left⟩, hItems, -⟩ := Option.bind_eq_some_iff.mp h
  obtain ⟨⟨first, behind⟩, hFirst, -⟩ := Option.bind_eq_some_iff.mp hItems
  rw [skipBlanks_of_unbroken hWord] at hFirst
  cases word with
  | nil =>
      have hNone : readItem? range.questionMark [] = none := by
        cases range.questionMark <;> rfl
      rw [hNone] at hFirst
      cases hFirst
  | cons c word =>
      constructor
      · rw [List.cons_append, skipBlanks_eq, List.dropWhile_cons_of_neg]
        simp [hWord c]
      · intro d hD
        obtain rfl : c = d := Option.some.inj hD
        refine Bool.eq_false_iff.mpr fun hMark => ?_
        rw [readItem?_of_isMark _ hMark] at hFirst
        cases hFirst

/-- The fields of a text that consists of a zero, four fields and the days of the week. -/
theorem ofChars?_joined {minute hour dayOfMonth month weekdays : List Char}
    {minutes hours daysOfMonth months daysOfWeek : List Nat}
    (hMinute : Unbroken minute) (hMinutes : readField? .minutes minute = some (minutes, []))
    (hHour : Unbroken hour) (hHours : readField? .hours hour = some (hours, []))
    (hDay : Unbroken dayOfMonth)
    (hDays : readField? .daysOfMonth dayOfMonth = some (daysOfMonth, []))
    (hMonth : Unbroken month) (hMonths : readField? .months month = some (months, []))
    (hWeekday : Unbroken weekdays)
    (hWeekdays : readField? .daysOfWeek weekdays = some (daysOfWeek, [])) :
    Fields.ofChars? ([' '].intercalate [['0'], minute, hour, dayOfMonth, month, weekdays]) =
      some ⟨[0], minutes, hours, daysOfMonth, months, daysOfWeek, FieldRange.years.values⟩ := by
  have hText : [' '].intercalate [['0'], minute, hour, dayOfMonth, month, weekdays] =
      ['0'] ++ ' ' :: (minute ++ ' ' :: (hour ++ ' ' :: (dayOfMonth ++ ' ' ::
        (month ++ ' ' :: weekdays)))) := by
    simp [List.intercalate]
  have hZero : readField? .seconds ['0'] = some ([0], []) := by decide
  have hNone : readField? .years [] = none := by decide
  have hLast : IsNext weekdays := List.append_nil weekdays ▸ isNext_append hWeekday hWeekdays []
  rw [hText, Fields.ofChars?,
    readField?_append (isNext_append hMinute hMinutes _) (by simp [Unbroken, isGap]) hZero]
  simp only [Option.bind_eq_bind, Option.bind_some,
    readField?_append (isNext_append hHour hHours _) hMinute hMinutes,
    readField?_append (isNext_append hDay hDays _) hHour hHours,
    readField?_append (isNext_append hMonth hMonths _) hDay hDays,
    readField?_append hLast hMonth hMonths, hWeekdays, hNone]
  rfl

/-- What the five words of an expression stand for: four sets, and a weekday field. -/
structure FiveFields where
  minutes : List Nat
  hours : List Nat
  daysOfMonth : List Nat
  months : List Nat
  weekdays : List Char

namespace FiveFields

/-- The expression consists of five words, of which the first four are fields by themselves. -/
def Reads (five : FiveFields) (expression : String) : Prop :=
  ∃ minute hour dayOfMonth month,
    words (trim expression.toList) = [minute, hour, dayOfMonth, month, five.weekdays] ∧
    readField? .minutes minute = some (five.minutes, []) ∧
    readField? .hours hour = some (five.hours, []) ∧
    readField? .daysOfMonth dayOfMonth = some (five.daysOfMonth, []) ∧
    readField? .months month = some (five.months, [])

/-- A whole minute that all five fields let through. -/
structure Matches (five : FiveFields) (t : Timestamp) : Prop where
  minute : t.minute ∈ five.minutes
  hour : t.hour ∈ five.hours
  day : t.date.day ∈ five.daysOfMonth
  month : t.date.month ∈ five.months
  weekday : FieldDenotes five.weekdays t.date.weekday
  second : t.secondOfMinute = 0
  whole : t.nanosecond = 0

/-- All fields of an expression of five words, with these days of the week. -/
def allFields (five : FiveFields) (daysOfWeek : List Nat) : Fields where
  seconds := [0]
  minutes := five.minutes
  hours := five.hours
  daysOfMonth := five.daysOfMonth
  months := five.months
  daysOfWeek := daysOfWeek
  years := FieldRange.years.values

variable {five : FiveFields} {expression : String} {fields : Fields}

/-- An expression that is accepted has these fields, and its days of the week are those that
its last word denotes. -/
theorem Reads.ofExpression (h : five.Reads expression)
    (hFields : Fields.ofExpression expression = .ok fields) :
    ∃ days, fields = five.allFields days ∧
      ∀ day ≤ 6, day + 1 ∈ days ↔ FieldDenotes five.weekdays day := by
  obtain ⟨minute, hour, dayOfMonth, month, hWords, hMinutes, hHours, hDays, hMonths⟩ := h
  have hUnbroken (word : List Char)
      (hWord : word ∈ [minute, hour, dayOfMonth, month, five.weekdays]) : Unbroken word :=
    unbroken_of_mem_words (hWords ▸ hWord)
  cases hExpanded : WeekdayField.ofChars five.weekdays with
  | error error =>
      simp only [Fields.ofExpression, normalize, hWords, hExpanded] at hFields
      cases hFields
  | ok expanded =>
      obtain ⟨days, hDaysOfWeek, hDenotes⟩ := exists_readField?_toChars hExpanded
      have hText := ofChars?_joined (hUnbroken minute (by simp)) hMinutes
        (hUnbroken hour (by simp)) hHours (hUnbroken dayOfMonth (by simp)) hDays
        (hUnbroken month (by simp)) hMonths (unbroken_toChars hExpanded) hDaysOfWeek
      simp only [Fields.ofExpression, normalize, hWords, hExpanded, hText] at hFields
      exact ⟨days, (Except.ok.inj hFields).symm, hDenotes⟩

/-- The instants that the fields list are the matching minutes of the years of cron
expressions. -/
theorem lists_iff {days : List Nat}
    (hDenotes : ∀ day ≤ 6, day + 1 ∈ days ↔ FieldDenotes five.weekdays day) (t : Timestamp) :
    (five.allFields days).Lists t ↔
      five.Matches t ∧ 1970 ≤ t.date.year ∧ t.date.year ≤ 2100 := by
  have hWeekday : t.date.weekday ≤ 6 := by
    have := weekdayOfDayNumber_lt t.date.toDayNumber
    unfold Date.weekday
    omega
  have hYear : (∃ year ∈ FieldRange.years.values, t.date.year = (year : Nat)) ↔
      1970 ≤ t.date.year ∧ t.date.year ≤ 2100 := by
    constructor
    · rintro ⟨year, hMem, hYear⟩
      have hRange : 1970 ≤ year ∧ year ≤ 2100 := (FieldRange.mem_between_iff _ _ _).mp hMem
      omega
    · intro hRange
      refine ⟨t.date.year.toNat, (FieldRange.mem_between_iff _ _ _).mpr ?_, by omega⟩
      change 1970 ≤ t.date.year.toNat ∧ t.date.year.toNat ≤ 2100
      omega
  constructor
  · intro h
    exact ⟨⟨h.minute, h.hour, h.day, h.month, (hDenotes _ hWeekday).mp h.weekday,
      List.mem_singleton.mp h.second, h.whole⟩, hYear.mp h.year⟩
  · rintro ⟨h, hRange⟩
    exact ⟨hYear.mpr hRange, h.month, h.day, (hDenotes _ hWeekday).mpr h.weekday, h.hour,
      h.minute, List.mem_singleton.mpr h.second, h.whole⟩

end FiveFields

/-- A later second lies in no earlier year. -/
theorem year_le_of_second_le {t later : Timestamp} (h : t.second ≤ later.second) :
    t.date.year ≤ later.date.year := by
  by_contra hYears
  have hBefore : later.date.Before t.date := Or.inl (Int.lt_of_not_ge hYears)
  have hDays := hBefore.toDayNumber_lt (isValid_date later) (isValid_date t)
  have hClock := clock_bounds later
  rw [second_eq t, second_eq later] at h
  omega

/-- The search from an instant of the years 1970 to 9999 starts one second later. -/
theorem exists_addSeconds?_one {now : Timestamp} (hLeap : now.nanosecond < 2000000000)
    (hEra : 1970 ≤ now.date.year ∧ now.date.year ≤ 9999) :
    ∃ start, now.addSeconds? 1 = some start ∧ start.second = now.second + 1 := by
  have hSecond := second_bounds_of_era hEra
  have hRange : Timestamp.inRange (now.second + 1) = true := by
    have hFirstSecond : Timestamp.firstSecond ≤ 0 := by decide
    have hLastSecond : 253402300800 ≤ Timestamp.lastSecond := by decide
    rw [Timestamp.inRange, Bool.and_eq_true, decide_eq_true_eq, decide_eq_true_eq]
    omega
  have hParts (fraction : Nat) (hFraction : fraction < 1000000000) :
      Timestamp.ofParts? (now.second + 1) fraction = some ⟨now.second + 1, fraction⟩ := by
    simp [Timestamp.ofParts?, Nat.not_le.mpr hFraction, hRange]
  -- Out of a leap second the search starts in the next second too.
  by_cases hNormal : now.nanosecond < 1000000000
  · exact ⟨_, (if_pos hNormal).trans (hParts _ hNormal), rfl⟩
  · exact ⟨_, (if_neg hNormal).trans ((if_pos (by simp)).trans (hParts _ (by omega))), rfl⟩

end Cron

/-- The next run of a schedule with five fields is the first minute after the given instant that
matches them, and there is none only if no minute of the years of cron expressions does. -/
theorem Schedule.nextRunAfter_is_first_match {schedule : Schedule} {five : Cron.FiveFields}
    (hReads : five.Reads schedule.cron)
    (hAccepted : ∃ fields, Cron.Fields.ofExpression schedule.cron = .ok fields)
    (now : Timestamp) (hLeap : now.nanosecond < 2000000000)
    (hEra : 1970 ≤ now.date.year ∧ now.date.year ≤ 9999) :
    (∃ next, schedule.nextRunAfter now = .ok next ∧ now < next ∧ five.Matches next ∧
      next.date.year ≤ 2100 ∧ ∀ other, now < other → five.Matches other → next ≤ other) ∨
    (schedule.nextRunAfter now = .error (.noUpcomingRun schedule.cron) ∧
      ∀ other, now < other → five.Matches other → 2100 < other.date.year) := by
  obtain ⟨fields, hFields⟩ := hAccepted
  obtain ⟨days, rfl, hDenotes⟩ := hReads.ofExpression hFields
  obtain ⟨start, hStart, hSecond⟩ := Cron.exists_addSeconds?_one hLeap hEra
  have hLater (t : Timestamp) (h : now < t) : 1970 ≤ t.date.year := by
    have hSeconds : now.second ≤ t.second := by
      rw [Timestamp.lt_iff] at h
      omega
    have := Cron.year_le_of_second_le hSeconds
    omega
  have hStartYear : 1970 ≤ start.date.year :=
    hLater start (Or.inl (by omega))
  have hLists := Cron.FiveFields.lists_iff hDenotes
  unfold nextRunAfter
  rw [hFields]
  have hYears : (five.allFields days).years = Cron.FieldRange.years.values := rfl
  rcases Cron.Fields.nextAfter?_spec hYears hStart hSecond hStartYear with
    ⟨next, hNext, hListed, hAfter, hLeast⟩ | ⟨hNone, hNoOther⟩
  · obtain ⟨hMatches, -, hYear⟩ := (hLists next).mp hListed
    refine Or.inl ⟨next, ?_, hAfter, hMatches, hYear, fun other hOther hOtherMatches => ?_⟩
    · simp only [bind, Except.bind, hNext]
    · rw [Timestamp.le_iff_not_lt]
      intro hEarlier
      have hSeconds : other.second ≤ next.second := by
        rw [Timestamp.lt_iff] at hEarlier
        omega
      have hOtherYear := Cron.year_le_of_second_le hSeconds
      have hListedOther := (hLists other).mpr
        ⟨hOtherMatches, hLater other hOther, Int.le_trans hOtherYear hYear⟩
      exact hLeast other hListedOther hOther hEarlier
  · refine Or.inr ⟨?_, fun other hOther hOtherMatches => ?_⟩
    · simp only [bind, Except.bind, hNone]
    · by_contra hYear
      exact hNoOther other ((hLists other).mpr
        ⟨hOtherMatches, hLater other hOther, Int.not_lt.mp hYear⟩) hOther

/-- Nine o'clock on working days. -/
def workingDays : Schedule where
  id := 1
  projectId := 1
  ref := "main"
  cron := "0 9 * * mon-5"
  ownerId := 1
  active := true
  nextRunAt := ⟨0, 0⟩
  lastPipelineId := none
  description := ""

def workingDaysFields : Cron.FiveFields where
  minutes := [0]
  hours := [9]
  daysOfMonth := Cron.FieldRange.daysOfMonth.values
  months := Cron.FieldRange.months.values
  weekdays := ['m', 'o', 'n', '-', '5']

/-- After ten o'clock on the first of March 2024, a Friday, the next run is on Monday. -/
theorem Schedule.nextRunAfter_is_first_match_workingDays :
    workingDaysFields.Reads workingDays.cron ∧
      workingDays.nextRunAfter ⟨1709287200, 0⟩ = .ok ⟨1709542800, 0⟩ ∧
      ∀ other, ⟨1709287200, 0⟩ < other → workingDaysFields.Matches other →
        ⟨1709542800, 0⟩ ≤ other := by
  have hReads : workingDaysFields.Reads workingDays.cron :=
    ⟨['0'], ['9'], ['*'], ['*'], by decide +kernel, by decide +kernel, by decide +kernel,
      by decide +kernel, by decide +kernel⟩
  have hNext : workingDays.nextRunAfter ⟨1709287200, 0⟩ = .ok ⟨1709542800, 0⟩ := rfl
  refine ⟨hReads, hNext, ?_⟩
  rcases Schedule.nextRunAfter_is_first_match hReads ⟨_, rfl⟩ ⟨1709287200, 0⟩ (by decide)
    (by decide) with ⟨next, hFound, -, -, -, hLeast⟩ | ⟨hNone, -⟩
  · rw [hNext] at hFound
    rwa [← Except.ok.inj hFound] at hLeast
  · rw [hNext] at hNone
    cases hNone

/-- The third of these five words is read as two fields. -/
def crowdedWord : Schedule :=
  { workingDays with cron := "0 9 1* 2 *" }

/-- The fourth word is the field of February, but it counts as a day of the week.  After half
past ten on the first of March 2024 the next run is in April. -/
theorem Schedule.run_misses_month_crowdedWord :
    (∃ fields, Cron.Fields.ofExpression crowdedWord.cron = .ok fields) ∧
      ∃ minute hour dayOfMonth month weekdays months next,
        words (trim crowdedWord.cron.toList) = [minute, hour, dayOfMonth, month, weekdays] ∧
        Cron.readField? .months month = some (months, []) ∧
        crowdedWord.nextRunAfter ⟨1709289000, 0⟩ = .ok next ∧
        next = Timestamp.ofDateTime ⟨2024, 4, 1⟩ 9 0 0 ∧ next.date.month ∉ months := by
  refine ⟨⟨_, rfl⟩, ['0'], ['9'], ['1', '*'], ['2'], ['*'], [2],
    Timestamp.ofDateTime ⟨2024, 4, 1⟩ 9 0 0, by decide +kernel, by decide +kernel, rfl, rfl,
    by decide⟩

end PipelineUpkeep

import PipelineUpkeep.Proofs.CalendarLaws
import PipelineUpkeep.Schedule.Rows
/-!
# The next instant lies in the future

The search for the next instant of a cron expression hands bounds from each unit to the
next smaller one.  The bounds of a chosen value are kept only while the value equals its
own bound, so the parts of what is found are never before the bounds in lexicographic
order.  The bounds are the parts of an instant one second after the given one.
-/

namespace PipelineUpkeep

open Time

namespace Cron

/-- Values that are lexicographically at or past their bounds, as far as there are
bounds. -/
def NotBefore : List Nat → List Nat → Prop
  | bound :: bounds, value :: values =>
      bound < value ∨ (bound = value ∧ NotBefore bounds values)
  | _, _ => True

theorem notBefore_nil (values : List Nat) : NotBefore [] values := by
  cases values <;> trivial

/-- A candidate lies between the ends of its unit and keeps all bounds or none; the one at
the lower end keeps them if a listed end does. -/
theorem mem_candidates {set : List Nat} {low high value : Nat} {keeps : Bool}
    {bounds rest : List Nat} (h : (value, rest) ∈ candidates set low high keeps bounds) :
    (low ≤ value ∧ value ≤ high) ∧ (rest = bounds ∨ rest = []) ∧
      (keeps = set.contains low → value = low → rest = bounds) := by
  have hSorted : ((FieldRange.between low high).filter (set.contains ·)).Pairwise (· < ·) :=
    (List.pairwise_lt_range' 1 Nat.one_pos).filter _
  have hMembers : ∀ member ∈ (FieldRange.between low high).filter (set.contains ·),
      member ∈ set ∧ low ≤ member ∧ member ≤ high := by
    intro member hMember
    obtain ⟨hBetween, hSet⟩ := List.mem_filter.mp hMember
    exact ⟨List.contains_iff_mem.mp hSet, (FieldRange.mem_between_iff _ _ _).mp hBetween⟩
  unfold candidates at h
  cases hAll : (FieldRange.between low high).filter (set.contains ·) with
  | nil =>
      rw [hAll] at h
      cases h
  | cons first others =>
      rw [hAll] at h hSorted hMembers
      obtain ⟨hFirst, -⟩ := List.pairwise_cons.mp hSorted
      rcases List.mem_cons.mp h with hSame | hOther
      · obtain ⟨rfl, rfl⟩ := Prod.mk.inj hSame
        obtain ⟨hSet, hEnds⟩ := hMembers value List.mem_cons_self
        refine ⟨hEnds, ?_, ?_⟩
        · split
          · exact Or.inl rfl
          · exact Or.inr rfl
        · rintro rfl rfl
          rw [if_pos (List.contains_iff_mem.mpr hSet)]
      · obtain ⟨other, hMem, hPair⟩ := List.mem_map.mp hOther
        obtain ⟨rfl, rfl⟩ := Prod.mk.inj hPair
        obtain ⟨-, hEnds⟩ := hMembers other (List.mem_cons_of_mem _ hMem)
        refine ⟨hEnds, Or.inr rfl, fun _ hEqual => ?_⟩
        have hBefore := hFirst other hMem
        have hFirstLow := (hMembers first List.mem_cons_self).2.1
        omega

/-- What a value at or past its own bound hands on keeps all values at or past theirs. -/
theorem notBefore_of_mem_unitCandidates {set : List Nat} {least greatest value : Nat}
    {bounds rest values : List Nat}
    (h : (value, rest) ∈ unitCandidates set least greatest bounds)
    (hRest : NotBefore rest values) : NotBefore bounds (value :: values) := by
  obtain ⟨⟨hLow, -⟩, -, hKeeps⟩ := mem_candidates h
  cases bounds with
  | nil => exact notBefore_nil _
  | cons bound bounds =>
      rcases Nat.lt_or_eq_of_le hLow with hPast | hSame
      · exact Or.inl hPast
      · rw [hKeeps rfl hSame.symm] at hRest
        exact Or.inr ⟨hSame, hRest⟩

/-- The same for days, where a bound beyond the end of the month does not count. -/
theorem notBefore_of_mem_dayCandidates {fields : Fields} {year month day : Nat}
    {bound : Nat} {bounds rest values : List Nat} (hBound : bound ≤ daysInMonth year month)
    (h : (day, rest) ∈ dayCandidates fields year month (bound :: bounds))
    (hRest : NotBefore rest values) : NotBefore (bound :: bounds) (day :: values) := by
  simp only [dayCandidates, List.headD_cons, List.tail_cons, Nat.min_eq_left hBound] at h
  obtain ⟨⟨hLow, -⟩, -, hKeeps⟩ := mem_candidates h
  rcases Nat.lt_or_eq_of_le hLow with hPast | hSame
  · exact Or.inl hPast
  · rw [hKeeps rfl hSame.symm] at hRest
    exact Or.inr ⟨hSame, hRest⟩

theorem firstTimeOfDay?_spec {fields : Fields} {bounds : List Nat} {hour minute second : Nat}
    (h : firstTimeOfDay? fields bounds = some (hour, minute, second)) :
    (hour ≤ 23 ∧ minute ≤ 59 ∧ second ≤ 59) ∧ NotBefore bounds [hour, minute, second] := by
  obtain ⟨⟨hour', minuteBounds⟩, hHour, h⟩ := List.exists_of_findSome?_eq_some h
  obtain ⟨⟨minute', secondBounds⟩, hMinute, h⟩ := List.exists_of_findSome?_eq_some h
  obtain ⟨⟨second', rest⟩, hSecond, hTime⟩ := Option.map_eq_some_iff.mp h
  simp only [Prod.mk.injEq] at hTime
  obtain ⟨rfl, rfl, rfl⟩ := hTime
  have hSecondMem := List.mem_of_head? hSecond
  refine ⟨⟨(mem_candidates hHour).1.2, (mem_candidates hMinute).1.2,
    (mem_candidates hSecondMem).1.2⟩, ?_⟩
  have hSeconds := notBefore_of_mem_unitCandidates hSecondMem (by cases rest <;> trivial :
    NotBefore rest [])
  have hMinutes := notBefore_of_mem_unitCandidates hMinute hSeconds
  exact notBefore_of_mem_unitCandidates hHour hMinutes

/-- What is found in a year exists there.  It is not before the bounds, if the month of the
bounds has their day. -/
theorem firstInYear?_spec {fields : Fields} {year : Nat} {bounds : List Nat} {found : Timestamp}
    (h : firstInYear? fields year bounds = some found) (hMonthBound : 1 ≤ bounds.headD 1)
    (hDayBound : 1 ≤ bounds.tail.headD 1) :
    ∃ month day hour minute second : Nat,
      found = Timestamp.ofDateTime ⟨year, month, day⟩ hour minute second ∧
      (Date.mk year month day).IsValid ∧ (hour ≤ 23 ∧ minute ≤ 59 ∧ second ≤ 59) ∧
      ∀ startMonth startDay time, bounds = startMonth :: startDay :: time →
        startDay ≤ daysInMonth year startMonth →
          NotBefore bounds [month, day, hour, minute, second] := by
  obtain ⟨⟨month, dayBounds⟩, hMonth, h⟩ := List.exists_of_findSome?_eq_some h
  obtain ⟨⟨day, timeBounds⟩, hDay, h⟩ := List.exists_of_findSome?_eq_some h
  simp only at h
  split at h
  · obtain ⟨⟨hour, minute, second⟩, hTime, rfl⟩ := Option.map_eq_some_iff.mp h
    obtain ⟨hRange, hTimeBounds⟩ := firstTimeOfDay?_spec hTime
    obtain ⟨⟨hMonthLow, hMonthHigh⟩, hDayBounds, hMonthKeeps⟩ := mem_candidates hMonth
    obtain ⟨⟨hDayLow, hDayHigh⟩, -, -⟩ := mem_candidates hDay
    have hMonthFirst : 1 ≤ month := Nat.le_trans hMonthBound hMonthLow
    have hDayFirst : 1 ≤ day := by
      have hHead : 1 ≤ dayBounds.headD 1 := by
        rcases hDayBounds with rfl | rfl
        · exact hDayBound
        · exact Nat.le_refl 1
      have hMonthLength : 1 ≤ daysInMonth year month := one_le_daysInMonth hMonthFirst hMonthHigh
      omega
    refine ⟨month, day, hour, minute, second, rfl, ⟨hDayFirst, hDayHigh⟩, hRange, ?_⟩
    rintro startMonth startDay time rfl hLength
    -- The bounds below the month count only in the month of the bounds themselves.
    rcases Nat.lt_or_eq_of_le hMonthLow with hPast | hSame
    · exact Or.inl hPast
    · have hKept : dayBounds = startDay :: time := hMonthKeeps rfl hSame.symm
      have hStart : startMonth = month := hSame
      rw [hKept] at hDay
      rw [hStart] at hLength
      exact Or.inr ⟨hStart, notBefore_of_mem_dayCandidates hLength hDay hTimeBounds⟩
  · cases h

end Cron

namespace Cron

/-- The date and the time of day of an instant, as bounds. -/
def boundsOf (start : Timestamp) : List Nat :=
  [start.date.month, start.date.day, start.hour, start.minute, start.secondOfMinute]

/-- The date of an instant exists. -/
theorem isValid_date (t : Timestamp) : t.date.IsValid :=
  (Date.ofDayNumber_spec t.dayNumber).1

theorem second_ofDateTime (date : Date) (hour minute second : Nat) :
    (Timestamp.ofDateTime date hour minute second).second =
      date.toDayNumber * 86400 + (hour * 3600 + minute * 60 + second : Nat) := rfl

theorem second_eq (start : Timestamp) :
    start.second = start.date.toDayNumber * 86400 +
      (start.hour * 3600 + start.minute * 60 + start.secondOfMinute : Nat) := by
  rw [Timestamp.date, (Date.ofDayNumber_spec _).2]
  unfold Timestamp.dayNumber Timestamp.hour Timestamp.minute Timestamp.secondOfMinute
    Timestamp.secondOfDay
  omega

theorem clock_bounds (start : Timestamp) :
    start.hour ≤ 23 ∧ start.minute ≤ 59 ∧ start.secondOfMinute ≤ 59 := by
  unfold Timestamp.hour Timestamp.minute Timestamp.secondOfMinute Timestamp.secondOfDay
  omega

/-- The seconds of the years 1970 to 9999. -/
theorem second_bounds_of_era {t : Timestamp}
    (hEra : 1970 ≤ t.date.year ∧ t.date.year ≤ 9999) : 0 ≤ t.second ∧ t.second < 253402300800 := by
  have hValid := isValid_date t
  have hFirst : (Date.mk 1969 12 31).toDayNumber < t.date.toDayNumber :=
    Date.Before.toDayNumber_lt (Or.inl (by simp only; omega)) (by decide) hValid
  have hLast : t.date.toDayNumber < (Date.mk 10000 1 1).toDayNumber :=
    Date.Before.toDayNumber_lt (Or.inl (by simp only; omega)) hValid (by decide)
  have hFirstDay : (Date.mk 1969 12 31).toDayNumber = -1 := by decide
  have hLastDay : (Date.mk 10000 1 1).toDayNumber = 2932897 := by decide
  have hClock := clock_bounds t
  rw [second_eq t]
  omega

/-- What is found in the year of the bounds or a later one is not before their instant. -/
theorem second_le_of_firstInYear? {fields : Fields} {year : Nat} {start found : Timestamp}
    (h : firstInYear? fields year (boundsOf start) = some found)
    (hYear : start.date.year ≤ year) : start.second ≤ found.second := by
  have hStart := isValid_date start
  obtain ⟨month, day, hour, minute, second, rfl, hValid, hRange, hNotBefore⟩ :=
    firstInYear?_spec h hStart.month_bounds.1 hStart.1
  have hClock := clock_bounds start
  rw [second_eq start, second_ofDateTime]
  by_cases hDates : start.date.Before ⟨year, month, day⟩
  · have hDays := hDates.toDayNumber_lt hStart hValid
    omega
  · -- The dates are equal, so the times of day decide.
    have hSameYear : start.date.year = year := by
      rcases Int.lt_or_eq_of_le hYear with hEarlier | hSame
      · exact absurd (Or.inl hEarlier) hDates
      · exact hSame
    have hLength : start.date.day ≤ daysInMonth year start.date.month := by
      rw [← hSameYear]
      exact hStart.2
    rcases hNotBefore _ _ _ rfl hLength with hMonth | ⟨hMonth, hDay | ⟨hDay, hTime⟩⟩
    · exact absurd (Or.inr ⟨hSameYear, Or.inl hMonth⟩) hDates
    · exact absurd (Or.inr ⟨hSameYear, Or.inr ⟨hMonth, hDay⟩⟩) hDates
    · have hDate : start.date = ⟨year, month, day⟩ := by
        rw [← hSameYear, ← hMonth, ← hDay]
      simp only [NotBefore, and_true] at hTime
      rw [hDate]
      omega

/-- What is found in a later year is not before either. -/
theorem second_le_of_later_year {fields : Fields} {year : Nat} {start found : Timestamp}
    (h : firstInYear? fields year [] = some found) (hYear : start.date.year < year) :
    start.second ≤ found.second := by
  have hStart := isValid_date start
  obtain ⟨month, day, hour, minute, second, rfl, hValid, -, -⟩ :=
    firstInYear?_spec h (Nat.le_refl 1) (Nat.le_refl 1)
  have hDates : start.date.Before ⟨year, month, day⟩ := Or.inl hYear
  have hDays := hDates.toDayNumber_lt hStart hValid
  have hClock := clock_bounds start
  rw [second_eq start, second_ofDateTime]
  omega

/-- A second later, also out of a leap second. -/
theorem second_lt_of_addSeconds? {after start : Timestamp} (h : after.addSeconds? 1 = some start) :
    after.second < start.second := by
  have hParts {second : Int} {fraction : Nat}
      (hStart : Timestamp.ofParts? second fraction = some start) : second ≤ start.second := by
    unfold Timestamp.ofParts? at hStart
    by_cases hCarry : fraction ≥ 1000000000
    · simp only [hCarry, if_true, Option.ite_none_right_eq_some, Option.some.injEq] at hStart
      rw [← hStart.2]
      exact Int.le_add_of_nonneg_right Int.one_nonneg
    · simp only [hCarry, if_false, Option.ite_none_right_eq_some, Option.some.injEq] at hStart
      exact Int.le_of_eq (congrArg Timestamp.second hStart.2)
  unfold Timestamp.addSeconds? Timestamp.addSpan? at h
  split at h
  · have := hParts h
    omega
  · rw [if_pos (by simp)] at h
    have := hParts h
    omega

/-- The next instant is past the given one. -/
theorem Fields.lt_of_nextAfter? {fields : Fields} (hYears : fields.years.Pairwise (· < ·))
    {after found : Timestamp} (h : fields.nextAfter? after = some found) : after < found := by
  unfold nextAfter? at h
  obtain ⟨start, hStart, h⟩ := Option.bind_eq_some_iff.mp h
  have hLater := second_lt_of_addSeconds? hStart
  -- The search starts a second later, and finds nothing before its start.
  suffices hFound : start.second ≤ found.second by
    rw [Timestamp.lt_iff]
    omega
  simp only at h
  split at h
  · cases h
  · rename_i hEra
    split at h
    · cases h
    · rename_i first rest hListed
      have hSorted : (first :: rest).Pairwise (· < ·) := hListed ▸ hYears.filter _
      have hFirstYear : start.date.year ≤ first := by
        have hMem : first ∈ fields.years.filter (start.date.year.toNat ≤ ·) := by
          rw [hListed]
          exact List.mem_cons_self
        have := of_decide_eq_true (List.mem_filter.mp hMem).2
        omega
      rw [Option.orElse_eq_orElse, Option.orElse_eq_or] at h
      rcases Option.or_eq_some_iff.mp h with hFirst | ⟨-, hRest⟩
      · exact second_le_of_firstInYear? hFirst hFirstYear
      · obtain ⟨year, hYear, hIn⟩ := List.exists_of_findSome?_eq_some hRest
        have hPast : first < year := (List.pairwise_cons.mp hSorted).1 year hYear
        exact second_le_of_later_year hIn (by omega)

/-- What is found lies in a listed year, at or after bounds that name a month and a day. -/
theorem Fields.nextAfter?_cases {fields : Fields} {after found : Timestamp}
    (h : fields.nextAfter? after = some found) :
    ∃ year ∈ fields.years, ∃ bounds : List Nat, 1 ≤ bounds.headD 1 ∧ 1 ≤ bounds.tail.headD 1 ∧
      firstInYear? fields year bounds = some found := by
  unfold nextAfter? at h
  obtain ⟨start, -, h⟩ := Option.bind_eq_some_iff.mp h
  simp only at h
  split at h
  · cases h
  · split at h
    · cases h
    · rename_i first rest hListed
      have hYears (year : Nat) (hYear : year ∈ first :: rest) : year ∈ fields.years :=
        (List.mem_filter.mp (hListed ▸ hYear)).1
      have hStart := isValid_date start
      rw [Option.orElse_eq_orElse, Option.orElse_eq_or] at h
      rcases Option.or_eq_some_iff.mp h with hFirst | ⟨-, hRest⟩
      · exact ⟨first, hYears first List.mem_cons_self, boundsOf start, hStart.month_bounds.1,
          hStart.1, hFirst⟩
      · obtain ⟨year, hYear, hIn⟩ := List.exists_of_findSome?_eq_some hRest
        exact ⟨year, hYears year (List.mem_cons_of_mem _ hYear), [], Nat.le_refl 1,
          Nat.le_refl 1, hIn⟩

/-- A field denotes an increasing list. -/
theorem pairwise_of_readField? {range : FieldRange} {text rest : List Char} {values : List Nat}
    (h : readField? range text = some (values, rest)) : values.Pairwise (· < ·) := by
  obtain ⟨⟨items, left⟩, -, h⟩ := Option.bind_eq_some_iff.mp h
  obtain ⟨found, hFound, h⟩ := Option.bind_eq_some_iff.mp h
  obtain ⟨rfl, rfl⟩ := Prod.mk.inj (Option.some.inj h)
  obtain ⟨sets, -, rfl⟩ := Option.map_eq_some_iff.mp hFound
  exact (List.pairwise_lt_range' 1 Nat.one_pos).filter _

/-- The values of a field lie in its range. -/
theorem mem_range_of_readField? {range : FieldRange} {text rest : List Char} {values : List Nat}
    (h : readField? range text = some (values, rest)) {value : Nat} (hValue : value ∈ values) :
    range.first ≤ value ∧ value ≤ range.last := by
  obtain ⟨⟨items, left⟩, -, h⟩ := Option.bind_eq_some_iff.mp h
  obtain ⟨found, hFound, h⟩ := Option.bind_eq_some_iff.mp h
  obtain ⟨rfl, rfl⟩ := Prod.mk.inj (Option.some.inj h)
  exact fieldValues?_subset_range hFound hValue

/-- The years of an expression are all years, or those of its last field. -/
theorem Fields.years_cases {text : List Char} {fields : Fields}
    (h : Fields.ofChars? text = some fields) :
    fields.years = FieldRange.years.values ∨
      ∃ last rest, readField? .years last = some (fields.years, rest) := by
  obtain ⟨⟨seconds, text⟩, -, h⟩ := Option.bind_eq_some_iff.mp h
  obtain ⟨⟨minutes, text⟩, -, h⟩ := Option.bind_eq_some_iff.mp h
  obtain ⟨⟨hours, text⟩, -, h⟩ := Option.bind_eq_some_iff.mp h
  obtain ⟨⟨daysOfMonth, text⟩, -, h⟩ := Option.bind_eq_some_iff.mp h
  obtain ⟨⟨months, text⟩, -, h⟩ := Option.bind_eq_some_iff.mp h
  obtain ⟨⟨daysOfWeek, text⟩, -, h⟩ := Option.bind_eq_some_iff.mp h
  simp only at h
  split at h
  · rw [← Option.some.inj h]
    simp only
    cases hYears : readField? .years text with
    | none => exact Or.inl rfl
    | some found => exact Or.inr ⟨text, found.2, hYears⟩
  · cases h

theorem Fields.pairwise_years {text : List Char} {fields : Fields}
    (h : Fields.ofChars? text = some fields) : fields.years.Pairwise (· < ·) := by
  rcases years_cases h with hAll | ⟨last, rest, hLast⟩
  · rw [hAll]
    exact List.pairwise_lt_range' 1 Nat.one_pos
  · exact pairwise_of_readField? hLast

theorem Fields.mem_years_bounds {text : List Char} {fields : Fields}
    (h : Fields.ofChars? text = some fields) {year : Nat} (hYear : year ∈ fields.years) :
    1970 ≤ year ∧ year ≤ 2100 := by
  rcases years_cases h with hAll | ⟨last, rest, hLast⟩
  · rw [hAll] at hYear
    exact (FieldRange.mem_between_iff _ _ _).mp hYear
  · exact mem_range_of_readField? hLast hYear

end Cron

/-- The next run of a schedule is found in the fields of its expression. -/
theorem Schedule.exists_of_nextRunAfter {schedule : Schedule} {now next : Timestamp}
    (h : schedule.nextRunAfter now = .ok next) :
    ∃ text fields, Cron.Fields.ofChars? text = some fields ∧ fields.nextAfter? now = some next := by
  unfold nextRunAfter at h
  cases hFields : Cron.Fields.ofExpression schedule.cron with
  | error error =>
      rw [hFields] at h
      cases h
  | ok fields =>
      rw [hFields] at h
      cases hNext : fields.nextAfter? now with
      | none =>
          simp only [bind, Except.bind, hNext] at h
          cases h
      | some found =>
          simp only [bind, Except.bind, hNext] at h
          rw [← Except.ok.inj h]
          unfold Cron.Fields.ofExpression at hFields
          simp only at hFields
          split at hFields
          · cases hFields
          · split at hFields
            · rename_i hText
              rw [← Except.ok.inj hFields] at hNext
              exact ⟨_, _, hText, hNext⟩
            · cases hFields

/-- A schedule never runs again at or before the instant that it is asked about. -/
theorem Schedule.lt_of_nextRunAfter {schedule : Schedule} {now next : Timestamp}
    (h : schedule.nextRunAfter now = .ok next) : now < next := by
  obtain ⟨text, fields, hFields, hNext⟩ := exists_of_nextRunAfter h
  exact fields.lt_of_nextAfter? (Cron.Fields.pairwise_years hFields) hNext

end PipelineUpkeep

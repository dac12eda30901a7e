import Mathlib.Tactic.ByContra
import Mathlib.Tactic.IntervalCases
import PipelineUpkeep.Time.Calendar
/-!
# Laws of the calendar

Day numbers count the days of the calendar without a gap: each month starts where the
month before ends, so later dates have greater day numbers.  Every integer is the day
number of a date, and the date computed from it exists and has this number.
-/

namespace PipelineUpkeep.Time

theorem isLeapYear_iff (year : Int) :
    isLeapYear year = true ↔ year % 4 = 0 ∧ (year % 100 ≠ 0 ∨ year % 400 = 0) := by
  simp [isLeapYear]

theorem one_le_daysInMonth {year : Int} {month : Nat} (hFirst : 1 ≤ month) (hLast : month ≤ 12) :
    1 ≤ daysInMonth year month := by
  have hFebruary : 1 ≤ daysInMonth year 2 := by
    simp only [daysInMonth]
    split <;> decide
  interval_cases month <;> first | exact hFebruary | simp [daysInMonth]

/-- Days from 1970-01-01 to the first of March of a year. -/
def marchStart (year : Int) : Int :=
  365 * year + year / 4 - year / 100 + year / 400 - 719468

/-- Days from the first of March to the first of a month, counted from March as zero. -/
def monthStart (marchMonth : Int) : Int :=
  (153 * marchMonth + 2) / 5

theorem toDayNumber_of_le_two (year : Int) {month : Nat} (day : Nat) (h : month ≤ 2) :
    (Date.mk year month day).toDayNumber =
      marchStart (year - 1) + monthStart (month + 9) + day - 1 := by
  have hNot : ¬ month > 2 := by omega
  simp only [Date.toDayNumber, marchStart, monthStart, h, if_true, hNot, if_false]
  omega

theorem toDayNumber_of_two_lt (year : Int) {month : Nat} (day : Nat) (h : 2 < month) :
    (Date.mk year month day).toDayNumber =
      marchStart year + monthStart (month - 3) + day - 1 := by
  have hNot : ¬ month ≤ 2 := by omega
  simp only [Date.toDayNumber, marchStart, monthStart, hNot, if_false, gt_iff_lt, h, if_true]
  omega

theorem toDayNumber_day (year : Int) (month day : Nat) :
    (Date.mk year month day).toDayNumber = (Date.mk year month 1).toDayNumber + day - 1 := by
  by_cases hEarly : month ≤ 2
  · rw [toDayNumber_of_le_two _ _ hEarly, toDayNumber_of_le_two _ _ hEarly]
    omega
  · have hLate : 2 < month := by omega
    rw [toDayNumber_of_two_lt _ _ hLate, toDayNumber_of_two_lt _ _ hLate]
    omega

/-- A leap day belongs to the year that ends with February. -/
theorem marchStart_succ (year : Int) :
    marchStart year = marchStart (year - 1) + (if isLeapYear year then 366 else 365) := by
  unfold marchStart
  by_cases hLeap : isLeapYear year = true
  · rw [if_pos hLeap]
    rw [isLeapYear_iff] at hLeap
    omega
  · rw [if_neg hLeap]
    rw [isLeapYear_iff] at hLeap
    omega

/-! ## Months and years follow one another -/

theorem toDayNumber_next_month (year : Int) {month : Nat} (hFirst : 1 ≤ month)
    (hLast : month ≤ 11) :
    (Date.mk year (month + 1) 1).toDayNumber =
      (Date.mk year month 1).toDayNumber + daysInMonth year month := by
  have hMarch := marchStart_succ year
  by_cases hEarly : month ≤ 2
  · have hMonths : month = 1 ∨ month = 2 := by omega
    rcases hMonths with rfl | rfl
    · rw [toDayNumber_of_le_two _ _ (by decide), toDayNumber_of_le_two _ _ (by decide)]
      simp only [monthStart, daysInMonth]
      omega
    · rw [toDayNumber_of_two_lt _ _ (by decide), toDayNumber_of_le_two _ _ (by decide)]
      simp only [monthStart, daysInMonth]
      split at hMarch
      · rename_i hLeap
        rw [if_pos hLeap]
        omega
      · rename_i hLeap
        rw [if_neg hLeap]
        omega
  · have hLate : 2 < month := Nat.lt_of_not_le hEarly
    rw [toDayNumber_of_two_lt _ _ hLate, toDayNumber_of_two_lt _ _ (Nat.lt_succ_of_lt hLate)]
    interval_cases month <;> simp only [monthStart, daysInMonth] <;> omega

theorem toDayNumber_next_year (year : Int) :
    (Date.mk (year + 1) 1 1).toDayNumber = (Date.mk year 12 1).toDayNumber + 31 := by
  rw [toDayNumber_of_le_two _ _ (by decide), toDayNumber_of_two_lt _ _ (by decide)]
  simp only [monthStart, Int.add_sub_cancel]
  omega

theorem month_end_le (year : Int) {month later : Nat} (hFirst : 1 ≤ month)
    (hLater : month < later) (hLast : later ≤ 12) :
    (Date.mk year month 1).toDayNumber + daysInMonth year month ≤
      (Date.mk year later 1).toDayNumber := by
  induction later with
  | zero => exact absurd hLater (Nat.not_lt_zero _)
  | succ previous ih =>
      rcases Nat.lt_succ_iff_lt_or_eq.mp hLater with hBefore | rfl
      · have hStep := toDayNumber_next_month year (show 1 ≤ previous by omega) (by omega)
        have hPrevious := ih hBefore (by omega)
        omega
      · exact Int.le_of_eq (toDayNumber_next_month year hFirst (by omega)).symm

theorem year_end_le (year : Int) (count : Nat) :
    (Date.mk year 12 1).toDayNumber + 31 ≤
      (Date.mk (year + 1 + count) 1 1).toDayNumber := by
  induction count with
  | zero =>
      have hStep := toDayNumber_next_year year
      rw [Int.natCast_zero, Int.add_zero]
      omega
  | succ count ih =>
      have hStep := toDayNumber_next_year (year + 1 + count)
      have hMonths := month_end_le (year + 1 + count) (Nat.le_refl 1) (show 1 < 12 by decide)
        (Nat.le_refl 12)
      have hNext : year + 1 + (count + 1 : Nat) = year + 1 + count + 1 := by omega
      rw [hNext]
      omega

/-! ## Order -/

namespace Date

theorem IsValid.month_bounds {date : Date} (h : date.IsValid) :
    1 ≤ date.month ∧ date.month ≤ 12 := by
  obtain ⟨hFirst, hLast⟩ := h
  by_contra hMonth
  have hNone : daysInMonth date.year date.month = 0 := by
    unfold daysInMonth
    split <;> omega
  omega

/-- An earlier year, or an earlier month or day of the same. -/
def Before (earlier later : Date) : Prop :=
  earlier.year < later.year ∨ (earlier.year = later.year ∧
    (earlier.month < later.month ∨ (earlier.month = later.month ∧ earlier.day < later.day)))

theorem Before.toDayNumber_lt {earlier later : Date} (h : earlier.Before later)
    (hEarlier : earlier.IsValid) (hLater : later.IsValid) :
    earlier.toDayNumber < later.toDayNumber := by
  obtain ⟨hMonth, hMonthEnd⟩ := hEarlier.month_bounds
  obtain ⟨hLaterMonth, hLaterEnd⟩ := hLater.month_bounds
  obtain ⟨hDay, hDayEnd⟩ := hEarlier
  obtain ⟨hLaterDay, -⟩ := hLater
  obtain ⟨year, month, day⟩ := earlier
  obtain ⟨laterYear, laterMonth, laterDay⟩ := later
  simp only [Before] at *
  rw [toDayNumber_day year month day, toDayNumber_day laterYear laterMonth laterDay]
  rcases h with hYears | ⟨rfl, hMonths | ⟨rfl, hDays⟩⟩
  · obtain ⟨count, hCount⟩ := Int.le.dest (show year + 1 ≤ laterYear by omega)
    have hBetween := year_end_le year count
    rw [hCount] at hBetween
    -- Between the two dates lie the end of the one year and the start of the other.
    have hOwn : (Date.mk year month 1).toDayNumber + daysInMonth year month ≤
        (Date.mk year 12 1).toDayNumber + 31 := by
      rcases Nat.lt_or_eq_of_le hMonthEnd with hBefore | rfl
      · have hEnd := month_end_le year hMonth hBefore (Nat.le_refl 12)
        omega
      · exact Int.le_refl _
    have hTheirs : (Date.mk laterYear 1 1).toDayNumber ≤
        (Date.mk laterYear laterMonth 1).toDayNumber := by
      rcases Nat.lt_or_eq_of_le hLaterMonth with hAfter | rfl
      · have hEnd := month_end_le laterYear (Nat.le_refl 1) hAfter hLaterEnd
        omega
      · exact Int.le_refl _
    omega
  · have hEnd := month_end_le year hMonth hMonths hLaterEnd
    omega
  · omega

end Date

/-! ## Dates of day numbers -/

/-- The year of its era in which a day lies; years start in March. -/
def yearOfEra (dayOfEra : Int) : Int :=
  (dayOfEra - dayOfEra / 1460 + dayOfEra / 36524 - dayOfEra / 146096) / 365

/-- A day is counted by centuries, cycles of four years, years and days. -/
theorem yearOfEra_eq {dayOfEra century cycle year day : Int}
    (hDay : dayOfEra = 36524 * century + 1461 * cycle + 365 * year + day)
    (hCentury : 0 ≤ century ∧ century ≤ 3) (hCycle : 0 ≤ cycle ∧ cycle ≤ 24)
    (hYear : 0 ≤ year ∧ year ≤ 3) (hFirst : 0 ≤ day)
    (hLast : day ≤ 364 ∨ (day = 365 ∧ year = 3 ∧ cycle ≤ 23)) :
    yearOfEra dayOfEra = 100 * century + 4 * cycle + year := by
  have hEnd : dayOfEra / 146096 = 0 := by omega
  have hCenturies : dayOfEra / 36524 = century := by omega
  -- A cycle has 1461 days, so the quotient may be one cycle ahead on its last days.
  have hCycles : dayOfEra / 1460 = 25 * century + cycle ∨
    dayOfEra / 1460 = 25 * century + cycle + 1 := by omega
  unfold yearOfEra
  rw [hEnd, hCenturies]
  omega

/-- A day lies in its year, on the leap day at the latest. -/
theorem exists_yearOfEra {dayOfEra : Int} (hFirst : 0 ≤ dayOfEra) (hLast : dayOfEra < 146097) :
    ∃ year day : Int, yearOfEra dayOfEra = year ∧ (0 ≤ year ∧ year ≤ 399) ∧
      dayOfEra = 365 * year + year / 4 - year / 100 + day ∧
      0 ≤ day ∧ (day ≤ 364 ∨ (day = 365 ∧ isLeapYear (year + 1) = true)) := by
  by_cases hEnd : dayOfEra = 146096
  · subst hEnd
    exact ⟨399, 365, by decide, by decide, by decide, by decide, Or.inr ⟨rfl, by decide⟩⟩
  · obtain ⟨century, hCentury⟩ : ∃ century, century = dayOfEra / 36524 := ⟨_, rfl⟩
    obtain ⟨cycle, hCycle⟩ : ∃ cycle, cycle = dayOfEra % 36524 / 1461 := ⟨_, rfl⟩
    obtain ⟨rest, hRest⟩ : ∃ rest, rest = dayOfEra % 36524 % 1461 := ⟨_, rfl⟩
    obtain ⟨year, hYear⟩ : ∃ year, year = min 3 (rest / 365) := ⟨_, rfl⟩
    obtain ⟨day, hDay⟩ : ∃ day, day = rest - 365 * year := ⟨_, rfl⟩
    have hSum : dayOfEra = 36524 * century + 1461 * cycle + 365 * year + day := by omega
    have hCenturyBounds : 0 ≤ century ∧ century ≤ 3 := by omega
    have hCycleBounds : 0 ≤ cycle ∧ cycle ≤ 24 := by omega
    have hYearBounds : 0 ≤ year ∧ year ≤ 3 := by omega
    have hFirstDay : 0 ≤ day := by omega
    have hLastDay : day ≤ 364 ∨ (day = 365 ∧ year = 3 ∧ cycle ≤ 23) := by omega
    -- From here on the parts are only known by their sum and bounds.
    clear hCentury hCycle hRest hYear hDay
    have hQuarters : (100 * century + 4 * cycle + year) / 4 = 25 * century + cycle := by omega
    have hHundreds : (100 * century + 4 * cycle + year) / 100 = century := by omega
    refine ⟨100 * century + 4 * cycle + year, day,
      yearOfEra_eq hSum hCenturyBounds hCycleBounds hYearBounds hFirstDay hLastDay,
      by omega, ?_, hFirstDay, ?_⟩
    · rw [hQuarters, hHundreds]
      omega
    · rw [isLeapYear_iff]
      omega

theorem marchStart_era {year : Int} (hYear : 0 ≤ year ∧ year ≤ 399) (era : Int) :
    marchStart (year + era * 400) =
      era * 146097 + (365 * year + year / 4 - year / 100) - 719468 := by
  have hQuarters : (year + era * 400) / 4 = year / 4 + era * 100 := by omega
  have hHundreds : (year + era * 400) / 100 = year / 100 + era * 4 := by omega
  have hEras : (year + era * 400) / 400 = era := by omega
  rw [marchStart, hQuarters, hHundreds, hEras]
  omega

namespace Date

/-- The date that lies a number of days after the first of March of a year. -/
def ofMarchDay (year day : Int) : Date :=
  let marchMonth := (5 * day + 2) / 153
  ⟨if marchMonth < 10 then year else year + 1,
    (if marchMonth < 10 then marchMonth + 3 else marchMonth - 9).toNat,
    (day - monthStart marchMonth + 1).toNat⟩

theorem ofMarchDay_spec {year day : Int} (hFirst : 0 ≤ day)
    (hLast : day ≤ 364 ∨ (day = 365 ∧ isLeapYear (year + 1) = true)) :
    (ofMarchDay year day).IsValid ∧ (ofMarchDay year day).toDayNumber = marchStart year + day := by
  obtain ⟨marchMonth, hMarchMonth⟩ : ∃ month, month = (5 * day + 2) / 153 := ⟨_, rfl⟩
  unfold ofMarchDay
  simp only [← hMarchMonth]
  by_cases hSpring : marchMonth < 10
  · obtain ⟨month, hMonth⟩ : ∃ month : Nat, month = marchMonth + 3 :=
      ⟨(marchMonth + 3).toNat, by omega⟩
    have hNat : (marchMonth + 3).toNat = month := by omega
    simp only [hSpring, if_true, hNat]
    constructor
    · have hLow : 3 ≤ month := by omega
      have hHigh : month ≤ 12 := by omega
      interval_cases month <;> simp only [IsValid, daysInMonth, monthStart] <;> omega
    · have hSame : (month : Int) - 3 = marchMonth := by omega
      rw [toDayNumber_of_two_lt _ _ (by omega), hSame, monthStart]
      omega
  · obtain ⟨month, hMonth⟩ : ∃ month : Nat, month = marchMonth - 9 :=
      ⟨(marchMonth - 9).toNat, by omega⟩
    have hNat : (marchMonth - 9).toNat = month := by omega
    simp only [hSpring, if_false, hNat]
    constructor
    · have hBounds : month = 1 ∨ month = 2 := by omega
      rcases hBounds with rfl | rfl
      · simp only [IsValid, daysInMonth, monthStart]
        omega
      · simp only [IsValid, daysInMonth, monthStart]
        split
        · omega
        · rename_i hLeap
          have hShort : day ≤ 364 := hLast.resolve_right fun h => hLeap h.2
          omega
    · have hSame : (month : Int) + 9 = marchMonth := by omega
      rw [toDayNumber_of_le_two _ _ (by omega), hSame, Int.add_sub_cancel, monthStart]
      omega

/-- The date of a day number exists and has this day number. -/
theorem ofDayNumber_spec (days : Int) :
    (ofDayNumber days).IsValid ∧ (ofDayNumber days).toDayNumber = days := by
  obtain ⟨era, hEra⟩ : ∃ era, era = (days + 719468) / 146097 := ⟨_, rfl⟩
  obtain ⟨dayOfEra, hDayOfEra⟩ : ∃ dayOfEra, dayOfEra = days + 719468 - era * 146097 := ⟨_, rfl⟩
  obtain ⟨year, day, hYearOfEra, hYear, hSum, hFirst, hLast⟩ :=
    exists_yearOfEra (show 0 ≤ dayOfEra by omega) (by omega)
  have hDayOfYear : dayOfEra - (365 * year + year / 4 - year / 100) = day := by omega
  have hDate : ofDayNumber days = ofMarchDay (year + era * 400) day := by
    unfold yearOfEra at hYearOfEra
    unfold ofDayNumber ofMarchDay monthStart
    simp only [← hEra, ← hDayOfEra, hYearOfEra, hDayOfYear]
    congr 1
    split <;> split <;> omega
  have hLeap : day ≤ 364 ∨ (day = 365 ∧ isLeapYear (year + era * 400 + 1) = true) := by
    refine hLast.imp id fun ⟨hDay, hYears⟩ => ⟨hDay, ?_⟩
    rw [isLeapYear_iff] at hYears ⊢
    omega
  have hStart := marchStart_era hYear era
  rw [hDate]
  obtain ⟨hValid, hNumber⟩ := ofMarchDay_spec hFirst hLeap
  refine ⟨hValid, hNumber.trans ?_⟩
  rw [hStart]
  omega

end Date

end PipelineUpkeep.Time

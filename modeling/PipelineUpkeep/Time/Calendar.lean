/-!
# The Gregorian calendar

Dates of the proleptic Gregorian calendar and their day numbers counted from
1970-01-01.  The conversion works in eras of 400 years (146097 days) whose years
start in March, so that a leap day is the last day of its year.  Years are
signed; there is a year zero.
-/

namespace PipelineUpkeep.Time

/-- A calendar date.  Only dates with `Date.IsValid` exist in the calendar. -/
structure Date where
  year : Int
  month : Nat
  day : Nat
  deriving DecidableEq, Repr, Inhabited

def isLeapYear (year : Int) : Bool :=
  year % 4 == 0 && (year % 100 != 0 || year % 400 == 0)

/-- The number of days of a month; zero for a month that does not exist. -/
def daysInMonth (year : Int) (month : Nat) : Nat :=
  match month with
  | 1 | 3 | 5 | 7 | 8 | 10 | 12 => 31
  | 4 | 6 | 9 | 11 => 30
  | 2 => if isLeapYear year then 29 else 28
  | _ => 0

/-- The month exists and the day is one of its days. -/
def Date.IsValid (date : Date) : Prop :=
  1 ≤ date.day ∧ date.day ≤ daysInMonth date.year date.month

instance (date : Date) : Decidable date.IsValid := by
  unfold Date.IsValid
  infer_instance

/-- Days from 1970-01-01 to a date. -/
def Date.toDayNumber (date : Date) : Int :=
  let marchYear := if date.month ≤ 2 then date.year - 1 else date.year
  let era := marchYear / 400
  let yearOfEra := marchYear - era * 400
  -- Months count from March as zero; any five of them from there have 153 days.
  let marchMonth : Int := if date.month > 2 then date.month - 3 else date.month + 9
  let dayOfYear := (153 * marchMonth + 2) / 5 + date.day - 1
  let dayOfEra := yearOfEra * 365 + yearOfEra / 4 - yearOfEra / 100 + dayOfYear
  era * 146097 + dayOfEra - 719468

/-- The date that lies a number of days after 1970-01-01. -/
def Date.ofDayNumber (days : Int) : Date :=
  let shifted := days + 719468
  let era := shifted / 146097
  let dayOfEra := shifted - era * 146097
  let yearOfEra :=
    -- Without the leap days before it, the day lies in years of equal length.
    (dayOfEra - dayOfEra / 1460 + dayOfEra / 36524 - dayOfEra / 146096) / 365
  let dayOfYear := dayOfEra - (365 * yearOfEra + yearOfEra / 4 - yearOfEra / 100)
  let marchMonth := (5 * dayOfYear + 2) / 153
  let day := dayOfYear - (153 * marchMonth + 2) / 5 + 1
  let month := if marchMonth < 10 then marchMonth + 3 else marchMonth - 9
  let year := yearOfEra + era * 400 + (if month ≤ 2 then 1 else 0)
  ⟨year, month.toNat, day.toNat⟩

/-- The weekday of a day number, counted from Sunday as zero. -/
def weekdayOfDayNumber (days : Int) : Nat :=
  ((days + 4) % 7).toNat

/-- The weekday of a date, counted from Sunday as zero. -/
def Date.weekday (date : Date) : Nat :=
  weekdayOfDayNumber date.toDayNumber

theorem weekdayOfDayNumber_lt (days : Int) : weekdayOfDayNumber days < 7 := by
  unfold weekdayOfDayNumber
  omega

theorem daysInMonth_le (year : Int) (month : Nat) : daysInMonth year month ≤ 31 := by
  unfold daysInMonth
  split <;> (try split) <;> omega

end PipelineUpkeep.Time

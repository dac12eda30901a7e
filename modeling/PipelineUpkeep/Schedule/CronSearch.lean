import PipelineUpkeep.Schedule.CronText
import PipelineUpkeep.Time.Timestamp
/-!
# The next instant of a cron expression

The search starts one second after the given instant and walks the listed years,
months, days, hours, minutes and seconds from the largest unit to the smallest.
The parts of the start are lower bounds for the first value that is visited at
each level, and for that one only; a bound that is not itself listed frees all
smaller units.  The first listed year takes the bounds even when it is later than
the year of the start.  A day on which no listed weekday falls is passed over.
-/

namespace PipelineUpkeep.Cron

open Time

/-- The values of `set` between `low` and `high`, each with the bounds for the
next smaller units: the first value keeps them if `keeps`, the others have none. -/
def candidates (set : List Nat) (low high : Nat) (keeps : Bool) (bounds : List Nat) :
    List (Nat × List Nat) :=
  match (FieldRange.between low high).filter (set.contains ·) with
  | [] => []
  | first :: rest => (first, if keeps then bounds else []) :: rest.map (·, [])

/-- The candidates of a unit with the range `least` to `greatest`; the head of
`bounds` is its own lower bound. -/
def unitCandidates (set : List Nat) (least greatest : Nat) (bounds : List Nat) :
    List (Nat × List Nat) :=
  let low := bounds.headD least
  candidates set low greatest (set.contains low) bounds.tail

/-- The candidate days of a month.  A bound past the end of the month counts as
its last day. -/
def dayCandidates (fields : Fields) (year month : Nat) (bounds : List Nat) :
    List (Nat × List Nat) :=
  let low := bounds.headD 1
  let last := daysInMonth year month
  candidates fields.daysOfMonth (min low last) last (fields.daysOfMonth.contains low) bounds.tail

/-- The first time of day at or after the bounds. -/
def firstTimeOfDay? (fields : Fields) (bounds : List Nat) : Option (Nat × Nat × Nat) :=
  (unitCandidates fields.hours 0 23 bounds).findSome? fun (hour, bounds) =>
    (unitCandidates fields.minutes 0 59 bounds).findSome? fun (minute, bounds) =>
      (unitCandidates fields.seconds 0 59 bounds).head?.map fun (second, _) =>
        (hour, minute, second)

/-- A listed weekday falls on the date. -/
def Fields.hasWeekday (fields : Fields) (date : Date) : Bool :=
  fields.daysOfWeek.contains (date.weekday + 1)

/-- The first instant of a year at or after the bounds. -/
def firstInYear? (fields : Fields) (year : Nat) (bounds : List Nat) : Option Timestamp :=
  (unitCandidates fields.months 1 12 bounds).findSome? fun (month, bounds) =>
    (dayCandidates fields year month bounds).findSome? fun (day, bounds) =>
      let date : Date := ⟨year, month, day⟩
      if fields.hasWeekday date then
        (firstTimeOfDay? fields bounds).map fun (hour, minute, second) =>
          Timestamp.ofDateTime date hour minute second
      else none

/-- The first instant of the expression after `after`.  Years before year zero
have none. -/
def Fields.nextAfter? (fields : Fields) (after : Timestamp) : Option Timestamp := do
  let start ← after.addSeconds? 1
  let date := start.date
  if date.year < 0 then none
  else
    let bounds := [date.month, date.day, start.hour, start.minute, start.secondOfMinute]
    match fields.years.filter (date.year.toNat ≤ ·) with
    | [] => none
    | first :: rest =>
        -- Only the first listed year is bound by the parts of the start.
        firstInYear? fields first bounds <|> rest.findSome? (firstInYear? fields · [])

end PipelineUpkeep.Cron

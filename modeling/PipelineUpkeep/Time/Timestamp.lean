import PipelineUpkeep.Time.Calendar
/-!
# Instants in UTC

A timestamp counts seconds from 1970-01-01T00:00:00Z, and nanoseconds within
that second.  A leap second is the preceding second with a nanosecond count of
10⁹ or more, so it orders after every instant of that second and before the next
one.  Timestamps lie in the years -262143 to 262142; adding a span that leaves
these years has no result.
-/

namespace PipelineUpkeep.Time

/-- An instant.  `nanosecond` reaches 10⁹ only inside a leap second. -/
structure Timestamp where
  second : Int
  nanosecond : Nat
  deriving DecidableEq, Repr, Inhabited

namespace Timestamp

/-- Midnight at the start of -262143-01-01. -/
def firstSecond : Int := (Date.mk (-262143) 1 1).toDayNumber * 86400

/-- One second before midnight at the end of 262142-12-31. -/
def lastSecond : Int := (Date.mk 262142 12 31).toDayNumber * 86400 + 86399

/-- The second lies in the years that timestamps cover. -/
def inRange (second : Int) : Bool :=
  firstSecond ≤ second && second ≤ lastSecond

/-- A time that the system's clock shows.  It counts seconds and nanoseconds within them, so
it never shows a leap second. -/
def IsReading (t : Timestamp) : Prop :=
  t.nanosecond < 1000000000

instance (t : Timestamp) : Decidable t.IsReading :=
  inferInstanceAs (Decidable (t.nanosecond < 1000000000))

/-- Order by second, then by nanosecond. -/
protected def lt (earlier later : Timestamp) : Prop :=
  earlier.second < later.second ∨
    (earlier.second = later.second ∧ earlier.nanosecond < later.nanosecond)

protected def le (earlier later : Timestamp) : Prop :=
  ¬ later.lt earlier

instance : LT Timestamp := ⟨Timestamp.lt⟩
instance : LE Timestamp := ⟨Timestamp.le⟩

instance (earlier later : Timestamp) : Decidable (earlier < later) := by
  show Decidable (earlier.lt later)
  unfold Timestamp.lt
  infer_instance

instance (earlier later : Timestamp) : Decidable (earlier ≤ later) := by
  show Decidable (¬ later.lt earlier)
  unfold Timestamp.lt
  infer_instance

theorem lt_iff (earlier later : Timestamp) :
    earlier < later ↔
      earlier.second < later.second ∨
        (earlier.second = later.second ∧ earlier.nanosecond < later.nanosecond) :=
  Iff.rfl

theorem le_iff_not_lt (earlier later : Timestamp) : earlier ≤ later ↔ ¬ later < earlier :=
  Iff.rfl

theorem lt_irrefl (t : Timestamp) : ¬ t < t := by
  rw [lt_iff]
  omega

theorem lt_trans {a b c : Timestamp} (hab : a < b) (hbc : b < c) : a < c := by
  rw [lt_iff] at hab hbc ⊢
  omega

theorem le_total (a b : Timestamp) : a ≤ b ∨ b ≤ a := by
  rw [le_iff_not_lt, le_iff_not_lt, lt_iff, lt_iff]
  omega

theorem le_trans {a b c : Timestamp} (hab : a ≤ b) (hbc : b ≤ c) : a ≤ c := by
  rw [le_iff_not_lt, lt_iff] at hab hbc ⊢
  omega

theorem le_of_lt {a b : Timestamp} (h : a < b) : a ≤ b := by
  rw [le_iff_not_lt, lt_iff]
  rw [lt_iff] at h
  omega

theorem lt_of_le_of_lt {a b c : Timestamp} (hab : a ≤ b) (hbc : b < c) : a < c := by
  rw [le_iff_not_lt, lt_iff] at hab
  rw [lt_iff] at hbc ⊢
  omega

theorem lt_of_lt_of_le {a b c : Timestamp} (hab : a < b) (hbc : b ≤ c) : a < c := by
  rw [le_iff_not_lt, lt_iff] at hbc
  rw [lt_iff] at hab ⊢
  omega

theorem le_antisymm {a b : Timestamp} (hab : a ≤ b) (hba : b ≤ a) : a = b := by
  rw [le_iff_not_lt, lt_iff] at hab hba
  cases a
  cases b
  simp only [mk.injEq]
  simp only at hab hba
  omega

/-- The instant `fraction` nanoseconds after a second, for less than two seconds'
worth of them, if it lies in the years that timestamps cover. -/
def ofParts? (second : Int) (fraction : Nat) : Option Timestamp :=
  let carry := fraction ≥ 1000000000
  let whole := if carry then second + 1 else second
  if inRange whole then
    some ⟨whole, if carry then fraction - 1000000000 else fraction⟩
  else none

/-- Add a span of whole seconds and a fraction of `nanoseconds` below 10⁹.

A span that leaves a leap second forward counts from the second that the leap
second extends; one that leaves it backward counts from the second after. -/
def addSpan? (t : Timestamp) (seconds : Int) (nanoseconds : Nat) : Option Timestamp :=
  if t.nanosecond < 1000000000 then
    ofParts? (t.second + seconds) (t.nanosecond + nanoseconds)
  else if seconds > 0 || (nanoseconds > 0 && t.nanosecond + nanoseconds ≥ 2000000000) then
    ofParts? (t.second + seconds) (t.nanosecond - 1000000000 + nanoseconds)
  else if seconds < 0 then
    ofParts? (t.second + 1 + seconds) (t.nanosecond - 1000000000 + nanoseconds)
  -- The sum is still inside the leap second.
  else some ⟨t.second, t.nanosecond + nanoseconds⟩

/-- Add whole seconds. -/
def addSeconds? (t : Timestamp) (seconds : Int) : Option Timestamp :=
  t.addSpan? seconds 0

/-- Subtract whole seconds. -/
def subSeconds? (t : Timestamp) (seconds : Int) : Option Timestamp :=
  t.addSpan? (-seconds) 0

/-- Add whole milliseconds. -/
def addMilliseconds? (t : Timestamp) (milliseconds : Int) : Option Timestamp :=
  t.addSpan? (milliseconds / 1000) ((milliseconds % 1000).toNat * 1000000)

/-- The number of days since 1970-01-01. -/
def dayNumber (t : Timestamp) : Int := t.second / 86400

/-- The seconds since midnight. -/
def secondOfDay (t : Timestamp) : Nat := (t.second % 86400).toNat

def date (t : Timestamp) : Date := Date.ofDayNumber t.dayNumber

def hour (t : Timestamp) : Nat := t.secondOfDay / 3600

def minute (t : Timestamp) : Nat := t.secondOfDay / 60 % 60

/-- The second of the minute; the leap second shares its number with the second
that it extends. -/
def secondOfMinute (t : Timestamp) : Nat := t.secondOfDay % 60

/-- The instant of a date and a time of day. -/
def ofDateTime (date : Date) (hour minute second : Nat) : Timestamp :=
  ⟨date.toDayNumber * 86400 + (hour * 3600 + minute * 60 + second : Nat), 0⟩

theorem subSeconds?_of_isReading {t : Timestamp} (h : t.IsReading) (seconds : Int) :
    t.subSeconds? seconds =
      if inRange (t.second - seconds) then some ⟨t.second - seconds, t.nanosecond⟩ else none := by
  have hWithin : t.nanosecond < 1000000000 := h
  have hCarry : ¬ t.nanosecond ≥ 1000000000 := by omega
  simp [subSeconds?, addSpan?, ofParts?, hWithin, hCarry, Int.sub_eq_add_neg]

end Timestamp

end PipelineUpkeep.Time

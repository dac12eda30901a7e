import PipelineUpkeep.Text.Decimal
/-!
# Cron fields

A cron field is a list of items between commas; an item is a shape, a shape with
a step, or a name.  Each field has a range of values, and some fields have names
for them.  What a field denotes is a set of values, kept as a strictly
increasing list; a field that names a value outside its range, a range whose end
lies before its start, or the step zero, denotes nothing.
-/

namespace PipelineUpkeep.Cron

/-- The values that one field ranges over. -/
structure FieldRange where
  first : Nat
  last : Nat
  /-- Names in lower case. -/
  names : List (List String × Nat)
  /-- A question mark may stand for an asterisk. -/
  questionMark : Bool

namespace FieldRange

def seconds : FieldRange := ⟨0, 59, [], false⟩

def minutes : FieldRange := ⟨0, 59, [], false⟩

def hours : FieldRange := ⟨0, 23, [], false⟩

def daysOfMonth : FieldRange := ⟨1, 31, [], true⟩

def months : FieldRange where
  first := 1
  last := 12
  names := [(["jan", "january"], 1), (["feb", "february"], 2), (["mar", "march"], 3),
    (["apr", "april"], 4), (["may"], 5), (["jun", "june"], 6), (["jul", "july"], 7),
    (["aug", "august"], 8), (["sep", "september"], 9), (["oct", "october"], 10),
    (["nov", "november"], 11), (["dec", "december"], 12)]
  questionMark := false

/-- Days of the week count from Sunday as one. -/
def daysOfWeek : FieldRange where
  first := 1
  last := 7
  names := [(["sun", "sunday"], 1), (["mon", "monday"], 2), (["tue", "tues", "tuesday"], 3),
    (["wed", "wednesday"], 4), (["thu", "thurs", "thursday"], 5), (["fri", "friday"], 6),
    (["sat", "saturday"], 7)]
  questionMark := true

def years : FieldRange := ⟨1970, 2100, [], false⟩

/-- The value lies in the range. -/
def admits (range : FieldRange) (value : Nat) : Bool :=
  range.first ≤ value && value ≤ range.last

/-- The values from `low` to `high`, both included. -/
def between (low high : Nat) : List Nat :=
  List.range' low (high + 1 - low)

/-- All values of the range. -/
def values (range : FieldRange) : List Nat :=
  between range.first range.last

/-- The value with a name, in any case. -/
def valueOfName? (range : FieldRange) (name : List Char) : Option Nat :=
  let lower := String.ofList (name.map Char.toLower)
  (range.names.find? fun entry => entry.1.contains lower).map (·.2)

theorem mem_between_iff (low high value : Nat) :
    value ∈ between low high ↔ low ≤ value ∧ value ≤ high := by
  simp only [between, List.mem_range'_1]
  omega

end FieldRange

/-- The shapes of an item. -/
inductive Shape where
  | all
  | point (value : Nat)
  | range (low high : Nat)
  | namedRange (low high : List Char)
  deriving DecidableEq, Repr

inductive Item where
  | plain (shape : Shape)
  | stepped (shape : Shape) (step : Nat)
  | named (letters : List Char)
  deriving DecidableEq, Repr

/-- Every `step`-th element, starting with the first. -/
def everyNth (step : Nat) (values : List Nat) : List Nat :=
  (values.zipIdx.filter fun entry => entry.2 % step == 0).map (·.1)

open FieldRange in
/-- The values of a shape, if it stays in the field's range. -/
def Shape.values? (range : FieldRange) : Shape → Option (List Nat)
  | all => some range.values
  | point value => if range.admits value then some [value] else none
  | .range low high =>
      if range.admits low && range.admits high && low ≤ high then some (between low high)
      else none
  | namedRange low high => do
      let low ← range.valueOfName? low
      let high ← range.valueOfName? high
      if low ≤ high then some (between low high) else none

open FieldRange in
/-- The values of an item, if it stays in the field's range.  A point with a step
starts a range that ends at the field's last value. -/
def Item.values? (range : FieldRange) : Item → Option (List Nat)
  | plain shape => shape.values? range
  | stepped shape step =>
      if step = 0 then none
      else
        match shape with
        | .point value =>
            if range.admits value then some (everyNth step (between value range.last)) else none
        | shape => (shape.values? range).map (everyNth step)
  | named letters => (range.valueOfName? letters).map ([·])

/-- The values of a whole field, in increasing order. -/
def fieldValues? (range : FieldRange) (items : List Item) : Option (List Nat) :=
  (items.mapM (Item.values? range)).map fun sets =>
    range.values.filter fun value => sets.any (·.contains value)

theorem fieldValues?_subset_range {range : FieldRange} {items : List Item} {set : List Nat}
    (h : fieldValues? range items = some set) {value : Nat} (hMem : value ∈ set) :
    range.first ≤ value ∧ value ≤ range.last := by
  unfold fieldValues? at h
  obtain ⟨sets, _, rfl⟩ := Option.map_eq_some_iff.mp h
  exact (FieldRange.mem_between_iff _ _ _).mp (List.mem_filter.mp hMem).1

end PipelineUpkeep.Cron

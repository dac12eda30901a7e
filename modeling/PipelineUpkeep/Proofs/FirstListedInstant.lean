import Mathlib.Data.List.Sort
import PipelineUpkeep.Proofs.NextInstant
/-!
# The search finds the first listed instant

The parts of an instant, from its year to its second, are a list of numbers, and the order of
instants is the lexicographic order of these lists.  The search for the next instant of a cron
expression is a nest of searches, one for each unit: the search in a unit is exact for the
bounds that it is given, because the searches in the smaller units are exact for the bounds
that it hands on.  `IsFirst` says what exact means, and holds from the seconds up to the years.
-/

namespace PipelineUpkeep

open Time

namespace Cron

variable {β : Type}

/-! ## Exact answers -/

/-- The answer of a search: what the first ones of the listed values at or past the bounds stand
for, or nothing if there are none. -/
def IsFirst (listed : List Nat → Prop) (bounds : List Nat) (build : List Nat → β) :
    Option β → Prop
  | none => ∀ values, listed values → ¬ NotBefore bounds values
  | some found => ∃ values, found = build values ∧ listed values ∧ NotBefore bounds values ∧
      ∀ others, listed others → NotBefore bounds others → NotBefore values others

/-- A listed value of a unit, followed by what is listed with it. -/
def Heads (set : List Nat) (least greatest : Nat) (listed : Nat → List Nat → Prop) :
    List Nat → Prop
  | [] => False
  | value :: values =>
      value ∈ set ∧ (least ≤ value ∧ value ≤ greatest) ∧ listed value values

theorem IsFirst.map {listed : List Nat → Prop} {bounds : List Nat} {build : List Nat → β}
    {answer : Option β} {γ : Type} (h : IsFirst listed bounds build answer) (finish : β → γ) :
    IsFirst listed bounds (fun values => finish (build values)) (answer.map finish) := by
  cases answer with
  | none => exact h
  | some found =>
      obtain ⟨values, rfl, hFirst⟩ := h
      exact ⟨values, rfl, hFirst⟩

theorem IsFirst.congr {listed same : List Nat → Prop} {bounds : List Nat}
    {build rebuild : List Nat → β} {answer : Option β} (h : IsFirst listed bounds build answer)
    (hSame : ∀ values, same values ↔ listed values)
    (hBuild : ∀ values, listed values → rebuild values = build values) :
    IsFirst same bounds rebuild answer := by
  cases answer with
  | none => exact fun values hListed => h values ((hSame values).mp hListed)
  | some found =>
      obtain ⟨values, rfl, hListed, hPast, hLeast⟩ := h
      exact ⟨values, (hBuild values hListed).symm, (hSame values).mpr hListed, hPast,
        fun others hOther => hLeast others ((hSame others).mp hOther)⟩

/-- Bounds that all listed values are past may be dropped. -/
theorem IsFirst.unbound {listed : List Nat → Prop} {bounds : List Nat} {build : List Nat → β}
    {answer : Option β} (h : IsFirst listed bounds build answer)
    (hPast : ∀ values, listed values → NotBefore bounds values) :
    IsFirst listed [] build answer := by
  cases answer with
  | none => exact fun values hListed _ => h values hListed (hPast values hListed)
  | some found =>
      obtain ⟨values, hBuild, hListed, -, hLeast⟩ := h
      exact ⟨values, hBuild, hListed, notBefore_nil _, fun others hOther _ =>
        hLeast others hOther (hPast others hOther)⟩

/-! ## One unit -/

theorem pairwise_candidates (set : List Nat) (low high : Nat) (keeps : Bool) (bounds : List Nat) :
    (candidates set low high keeps bounds).Pairwise (·.1 < ·.1) := by
  have hSorted : ((FieldRange.between low high).filter (set.contains ·)).Pairwise (· < ·) :=
    (List.pairwise_lt_range' 1 Nat.one_pos).filter _
  unfold candidates
  split
  · exact .nil
  · rename_i first rest hAll
    rw [hAll] at hSorted
    obtain ⟨hFirst, hRest⟩ := List.pairwise_cons.mp hSorted
    refine List.pairwise_cons.mpr ⟨fun entry hEntry => ?_, ?_⟩
    · obtain ⟨value, hValue, rfl⟩ := List.mem_map.mp hEntry
      exact hFirst value hValue
    · exact List.pairwise_map.mpr hRest

/-- The candidates are the listed values past the lower end, which alone keeps the bounds. -/
theorem mem_candidates_iff {set : List Nat} {low high value : Nat} {bounds rest : List Nat} :
    (value, rest) ∈ candidates set low high (set.contains low) bounds ↔
      value ∈ set ∧ (low ≤ value ∧ value ≤ high) ∧ rest = if value = low then bounds else [] := by
  have hMem (member : Nat) : member ∈ (FieldRange.between low high).filter (set.contains ·) ↔
      member ∈ set ∧ (low ≤ member ∧ member ≤ high) := by
    rw [List.mem_filter, FieldRange.mem_between_iff, List.contains_iff_mem, and_comm]
  have hSorted : ((FieldRange.between low high).filter (set.contains ·)).Pairwise (· < ·) :=
    (List.pairwise_lt_range' 1 Nat.one_pos).filter _
  rw [← and_assoc, ← hMem]
  unfold candidates
  cases hAll : (FieldRange.between low high).filter (set.contains ·) with
  | nil => simp
  | cons first others =>
      rw [hAll] at hMem hSorted
      obtain ⟨hFirst, -⟩ := List.pairwise_cons.mp hSorted
      have hLow := ((hMem first).mp List.mem_cons_self).2
      -- The lower end comes first if it is listed at all.
      have hKeeps : set.contains low = decide (first = low) := by
        rw [Bool.eq_iff_iff, List.contains_iff_mem, decide_eq_true_eq]
        constructor
        · intro hSet
          rcases List.mem_cons.mp ((hMem low).mpr ⟨hSet, by omega⟩) with hSame | hOther
          · exact hSame.symm
          · have := hFirst low hOther
            omega
        · rintro rfl
          exact ((hMem first).mp List.mem_cons_self).1
      simp only [hKeeps, decide_eq_true_eq, List.mem_cons, List.mem_map, Prod.mk.injEq]
      constructor
      · rintro (⟨rfl, rfl⟩ | ⟨other, hOther, rfl, rfl⟩)
        · exact ⟨Or.inl rfl, rfl⟩
        · have := hFirst other hOther
          exact ⟨Or.inr hOther, (if_neg (by omega)).symm⟩
      · rintro ⟨rfl | hOther, rfl⟩
        · exact Or.inl ⟨rfl, rfl⟩
        · have := hFirst value hOther
          exact Or.inr ⟨value, hOther, rfl, (if_neg (by omega)).symm⟩

/-- In a sorted list nothing is found before the entry that is found. -/
theorem exists_of_findSome?_sorted {γ : Type} {entries : List (Nat × γ)}
    (hSorted : entries.Pairwise (·.1 < ·.1)) {search : Nat × γ → Option β} {found : β}
    (h : entries.findSome? search = some found) :
    ∃ entry ∈ entries, search entry = some found ∧
      ∀ other ∈ entries, other.1 < entry.1 → search other = none := by
  obtain ⟨front, entry, back, rfl, hFound, hFront⟩ := List.findSome?_eq_some_iff.mp h
  refine ⟨entry, by simp, hFound, fun other hOther hBefore => ?_⟩
  rcases List.mem_append.mp hOther with hEarly | hLate
  · exact hFront other hEarly
  · have hBack := List.pairwise_cons.mp (List.pairwise_append.mp hSorted).2.1
    rcases List.mem_cons.mp hLate with rfl | hLate
    · omega
    · have := hBack.1 other hLate
      omega

/-- The search in a unit is exact for its bounds, if the searches in the smaller ones are exact
for what it hands on. -/
theorem isFirst_candidates {set : List Nat} {least greatest low : Nat} {bounds : List Nat}
    {search : Nat × List Nat → Option β} {listed : Nat → List Nat → Prop}
    {build : List Nat → β} (hLow : least ≤ low)
    (hInner : ∀ value rest, (least ≤ value ∧ value ≤ greatest) →
      (rest = [] ∨ (value = low ∧ rest = bounds)) →
      IsFirst (listed value) rest (fun values => build (value :: values)) (search (value, rest))) :
    IsFirst (Heads set least greatest listed) (low :: bounds) build
      ((candidates set low greatest (set.contains low) bounds).findSome? search) := by
  -- What is listed past the bounds comes with a candidate, for which it is past the bounds too.
  have hCandidate (value : Nat) (values : List Nat)
      (hListed : Heads set least greatest listed (value :: values))
      (hPast : NotBefore (low :: bounds) (value :: values)) :
      ∃ rest, (value, rest) ∈ candidates set low greatest (set.contains low) bounds ∧
        NotBefore rest values := by
    obtain ⟨hSet, hRange, -⟩ := hListed
    rcases hPast with hPast | ⟨rfl, hRest⟩
    · exact ⟨[], mem_candidates_iff.mpr ⟨hSet, by omega, (if_neg (by omega)).symm⟩,
        notBefore_nil values⟩
    · exact ⟨bounds, mem_candidates_iff.mpr ⟨hSet, by omega, (if_pos rfl).symm⟩, hRest⟩
  have hExact (value : Nat) (rest : List Nat)
      (h : (value, rest) ∈ candidates set low greatest (set.contains low) bounds) :
      IsFirst (listed value) rest (fun values => build (value :: values))
        (search (value, rest)) := by
    obtain ⟨-, hRange, rfl⟩ := mem_candidates_iff.mp h
    refine hInner value _ (by omega) ?_
    split
    · rename_i hSame
      exact Or.inr ⟨hSame, rfl⟩
    · exact Or.inl rfl
  cases hFound : (candidates set low greatest (set.contains low) bounds).findSome? search with
  | none =>
      rintro (_ | ⟨value, values⟩) hListed hPast
      · exact hListed
      · obtain ⟨rest, hMem, hRest⟩ := hCandidate value values hListed hPast
        have hNone := hExact value rest hMem
        rw [List.findSome?_eq_none_iff.mp hFound _ hMem] at hNone
        exact hNone values hListed.2.2 hRest
  | some found =>
      obtain ⟨⟨value, rest⟩, hMem, hSearch, hEarlier⟩ :=
        exists_of_findSome?_sorted (pairwise_candidates _ _ _ _ _) hFound
      have hSome := hExact value rest hMem
      rw [hSearch] at hSome
      obtain ⟨values, rfl, hListed, hRest, hLeast⟩ := hSome
      obtain ⟨hSet, hRange, hKept⟩ := mem_candidates_iff.mp hMem
      refine ⟨value :: values, rfl, ⟨hSet, by omega, hListed⟩, ?_, ?_⟩
      · rcases Nat.lt_or_eq_of_le hRange.1 with hPast | rfl
        · exact Or.inl hPast
        · rw [if_pos rfl] at hKept
          exact Or.inr ⟨rfl, hKept ▸ hRest⟩
      · rintro (_ | ⟨other, others⟩) hOther hPast
        · exact hOther.elim
        · obtain ⟨otherRest, hOtherMem, hOtherRest⟩ := hCandidate other others hOther hPast
          rcases Nat.lt_trichotomy value other with hAfter | rfl | hBefore
          · exact Or.inl hAfter
          · obtain rfl := hKept.trans (mem_candidates_iff.mp hOtherMem).2.2.symm
            exact Or.inr ⟨rfl, hLeast others hOther.2.2 hOtherRest⟩
          · have hNone := hExact other otherRest hOtherMem
            rw [hEarlier _ hOtherMem hBefore] at hNone
            exact absurd hOtherRest (hNone others hOther.2.2)

/-- The same where the bounds may be absent. -/
theorem isFirst_unitCandidates {set : List Nat} {least greatest : Nat} {bounds : List Nat}
    {search : Nat × List Nat → Option β} {listed : Nat → List Nat → Prop}
    {build : List Nat → β} (hBound : least ≤ bounds.headD least)
    (hInner : ∀ value rest, (least ≤ value ∧ value ≤ greatest) →
      (rest = [] ∨ bounds = value :: rest) →
      IsFirst (listed value) rest (fun values => build (value :: values)) (search (value, rest))) :
    IsFirst (Heads set least greatest listed) bounds build
      ((unitCandidates set least greatest bounds).findSome? search) := by
  cases bounds with
  | cons bound bounds =>
      refine isFirst_candidates hBound fun value rest hRange hRest => hInner value rest hRange ?_
      exact hRest.imp_right fun h => by rw [h.1, h.2]
  | nil =>
      have hAll : IsFirst (Heads set least greatest listed) [least] build
          ((unitCandidates set least greatest []).findSome? search) :=
        isFirst_candidates (Nat.le_refl least) fun value rest hRange hRest =>
          hInner value rest hRange (Or.inl (hRest.elim id And.right))
      refine hAll.unbound fun values hListed => ?_
      cases values with
      | nil => exact hListed.elim
      | cons value values =>
          exact (Nat.lt_or_eq_of_le hListed.2.1.1).imp_right fun h => ⟨h, notBefore_nil _⟩

/-! ## Times of day -/

/-- The listed times of day. -/
def Fields.ListsTime (fields : Fields) : List Nat → Prop :=
  Heads fields.hours 0 23 fun _ =>
    Heads fields.minutes 0 59 fun _ =>
      Heads fields.seconds 0 59 fun _ values => values = []

theorem Fields.ListsTime.exists_parts {fields : Fields} {values : List Nat}
    (h : fields.ListsTime values) : ∃ hour minute second, values = [hour, minute, second] := by
  match values, h with
  | [hour, minute, second], _ => exact ⟨hour, minute, second, rfl⟩
  | _ :: _ :: _ :: _ :: _, ⟨_, _, _, _, _, _, hNone⟩ => cases hNone

/-- The time of day with these parts. -/
def timeOf : List Nat → Nat × Nat × Nat
  | [hour, minute, second] => (hour, minute, second)
  | _ => (0, 0, 0)

theorem isFirst_firstTimeOfDay? (fields : Fields) (bounds : List Nat) :
    IsFirst fields.ListsTime bounds timeOf (firstTimeOfDay? fields bounds) := by
  refine isFirst_unitCandidates (Nat.zero_le _) fun hour minuteBounds _ _ => ?_
  refine isFirst_unitCandidates (Nat.zero_le _) fun minute secondBounds _ _ => ?_
  have hHead : ((unitCandidates fields.seconds 0 59 secondBounds).head?.map fun entry =>
      (hour, minute, entry.1)) =
      (unitCandidates fields.seconds 0 59 secondBounds).findSome? fun entry =>
        some (hour, minute, entry.1) := by
    cases unitCandidates fields.seconds 0 59 secondBounds <;> rfl
  simp only [hHead]
  refine isFirst_unitCandidates (Nat.zero_le _) fun second rest _ _ => ?_
  refine ⟨[], rfl, rfl, ?_, fun others hOther _ => hOther ▸ notBefore_nil []⟩
  cases rest <;> trivial

/-! ## Days of a year -/

/-- The listed days and times of a year: a day belongs to its month and has a listed weekday. -/
def Fields.ListsInYear (fields : Fields) (year : Nat) : List Nat → Prop :=
  Heads fields.months 1 12 fun month =>
    Heads fields.daysOfMonth 1 (daysInMonth year month) fun day values =>
      fields.hasWeekday ⟨year, month, day⟩ = true ∧ fields.ListsTime values

/-- The instant of a year with these parts. -/
def instantOf (year : Nat) : List Nat → Timestamp
  | [month, day, hour, minute, second] =>
      Timestamp.ofDateTime ⟨year, month, day⟩ hour minute second
  | _ => default

theorem dayCandidates_eq {fields : Fields} {year month : Nat} {bounds : List Nat}
    (hBound : bounds.headD 1 ≤ daysInMonth year month) :
    dayCandidates fields year month bounds =
      unitCandidates fields.daysOfMonth 1 (daysInMonth year month) bounds := by
  rw [dayCandidates, unitCandidates, Nat.min_eq_left hBound]

/-- The search in a year is exact for bounds that are a day of that year. -/
theorem isFirst_firstInYear? (fields : Fields) (year : Nat) {bounds : List Nat}
    (hMonth : 1 ≤ bounds.headD 1)
    (hDay : ∀ month rest, bounds = month :: rest →
      1 ≤ rest.headD 1 ∧ rest.headD 1 ≤ daysInMonth year month) :
    IsFirst (fields.ListsInYear year) bounds (instantOf year)
      (firstInYear? fields year bounds) := by
  refine isFirst_unitCandidates hMonth fun month dayBounds hMonthRange hDayBounds => ?_
  have hDayRange : 1 ≤ dayBounds.headD 1 ∧ dayBounds.headD 1 ≤ daysInMonth year month := by
    rcases hDayBounds with rfl | hKept
    · exact ⟨Nat.le_refl 1, one_le_daysInMonth hMonthRange.1 hMonthRange.2⟩
    · exact hDay month dayBounds hKept
  simp only [dayCandidates_eq hDayRange.2]
  refine isFirst_unitCandidates hDayRange.1 fun day timeBounds _ _ => ?_
  by_cases hWeekday : fields.hasWeekday ⟨year, month, day⟩ = true
  · rw [if_pos hWeekday]
    refine ((isFirst_firstTimeOfDay? fields timeBounds).map _).congr
      (fun values => and_iff_right hWeekday) fun values hListed => ?_
    obtain ⟨hour, minute, second, rfl⟩ := hListed.exists_parts
    rfl
  · rw [if_neg hWeekday]
    exact fun values hListed => absurd hListed.1 hWeekday

/-! ## All years -/

/-- The parts of an instant, from its year on. -/
def partsOf (t : Timestamp) : List Nat :=
  t.date.year.toNat :: boundsOf t

/-- The listed instants, by their parts. -/
def Fields.ListsParts (fields : Fields) : List Nat → Prop :=
  Heads fields.years 1970 2100 fields.ListsInYear

/-- The instant with these parts. -/
def instantOfParts : List Nat → Timestamp
  | year :: values => instantOf year values
  | [] => default

/-- The search walks the years as it walks the smaller units, if it starts in their range. -/
theorem Fields.nextAfter?_eq {fields : Fields} (hYears : fields.years = FieldRange.years.values)
    {after start : Timestamp} (hStart : after.addSeconds? 1 = some start)
    (hEra : 1970 ≤ start.date.year) :
    fields.nextAfter? after =
      (unitCandidates fields.years 1970 2100 (partsOf start)).findSome? fun entry =>
        firstInYear? fields entry.1 entry.2 := by
  obtain ⟨year, hYear⟩ : ∃ year : Nat, start.date.year = year :=
    ⟨start.date.year.toNat, by omega⟩
  have hMem (value : Nat) : value ∈ fields.years ↔ 1970 ≤ value ∧ value ≤ 2100 := by
    rw [hYears]
    exact FieldRange.mem_between_iff _ _ _
  -- Both walks go over the years from that of the start on.
  have hWalk : fields.years.filter (year ≤ ·) =
      (FieldRange.between year 2100).filter (fields.years.contains ·) := by
    refine List.Pairwise.eq_of_mem_iff (r := (· < ·)) ?_ ?_ fun value => ?_
    · rw [hYears]
      exact (List.pairwise_lt_range' 1 Nat.one_pos).filter _
    · exact (List.pairwise_lt_range' 1 Nat.one_pos).filter _
    · rw [List.mem_filter, List.mem_filter, FieldRange.mem_between_iff, List.contains_iff_mem,
        hMem, decide_eq_true_eq]
      omega
  unfold nextAfter?
  rw [hStart, Option.bind_eq_bind, Option.bind_some]
  have hEarly : ¬ (year : Int) < 0 := by omega
  simp only [partsOf, hYear, hEarly, if_false, Int.toNat_natCast, hWalk, unitCandidates,
    List.headD_cons, List.tail_cons]
  unfold candidates
  cases hAll : (FieldRange.between year 2100).filter (fields.years.contains ·) with
  | nil => rfl
  | cons first rest =>
      have hFirst : first ∈ fields.years ∧ year ≤ first := by
        have hHead : first ∈ fields.years.filter (year ≤ ·) := by
          rw [hWalk, hAll]
          exact List.mem_cons_self
        exact (List.mem_filter.mp hHead).imp_right of_decide_eq_true
      have hListed : fields.years.contains year = true := by
        have hRange := (hMem first).mp hFirst.1
        exact List.contains_iff_mem.mpr ((hMem year).mpr (by omega))
      simp only [hListed, if_true, List.findSome?_cons, List.findSome?_map]
      change (firstInYear? fields first (boundsOf start)).orElse _ = _
      cases firstInYear? fields first (boundsOf start) <;> rfl

theorem Fields.isFirst_nextAfter? {fields : Fields}
    (hYears : fields.years = FieldRange.years.values) {after start : Timestamp}
    (hStart : after.addSeconds? 1 = some start) (hEra : 1970 ≤ start.date.year) :
    IsFirst fields.ListsParts (partsOf start) instantOfParts (fields.nextAfter? after) := by
  have hValid := isValid_date start
  rw [nextAfter?_eq hYears hStart hEra]
  have hEraBound : 1970 ≤ (partsOf start).headD 1970 := by
    change 1970 ≤ start.date.year.toNat
    omega
  refine isFirst_unitCandidates hEraBound fun year bounds hRange hBounds => ?_
  rcases hBounds with rfl | hKept
  · exact isFirst_firstInYear? fields year (Nat.le_refl 1) nofun
  · obtain ⟨rfl, rfl⟩ := List.cons.inj hKept
    refine isFirst_firstInYear? fields _ hValid.month_bounds.1 fun month rest hMonth => ?_
    obtain ⟨rfl, rfl⟩ := List.cons.inj hMonth
    have hYear : ((start.date.year.toNat : Nat) : Int) = start.date.year := by omega
    rw [hYear]
    exact hValid

/-! ## Instants and their parts -/

/-- A whole second whose parts are all listed. -/
structure Fields.Lists (fields : Fields) (t : Timestamp) : Prop where
  year : ∃ year ∈ fields.years, t.date.year = (year : Nat)
  month : t.date.month ∈ fields.months
  day : t.date.day ∈ fields.daysOfMonth
  weekday : t.date.weekday + 1 ∈ fields.daysOfWeek
  hour : t.hour ∈ fields.hours
  minute : t.minute ∈ fields.minutes
  second : t.secondOfMinute ∈ fields.seconds
  whole : t.nanosecond = 0

theorem eq_of_not_before {date other : Date} (hNot : ¬ date.Before other)
    (hNotAfter : ¬ other.Before date) : date = other := by
  obtain ⟨year, month, day⟩ := date
  obtain ⟨otherYear, otherMonth, otherDay⟩ := other
  simp only [Date.Before] at hNot hNotAfter
  simp only [Date.mk.injEq]
  omega

/-- Two dates that exist and have one day number are the same. -/
theorem eq_of_toDayNumber_eq {date other : Date} (hDate : date.IsValid) (hOther : other.IsValid)
    (h : date.toDayNumber = other.toDayNumber) : date = other := by
  refine eq_of_not_before (fun hBefore => ?_) fun hAfter => ?_
  · have := hBefore.toDayNumber_lt hDate hOther
    omega
  · have := hAfter.toDayNumber_lt hOther hDate
    omega

/-- The parts that an instant is made of are its parts. -/
theorem parts_ofDateTime {date : Date} (hDate : date.IsValid) {hour minute second : Nat}
    (hHour : hour ≤ 23) (hMinute : minute ≤ 59) (hSecond : second ≤ 59) :
    (Timestamp.ofDateTime date hour minute second).date = date ∧
      (Timestamp.ofDateTime date hour minute second).hour = hour ∧
      (Timestamp.ofDateTime date hour minute second).minute = minute ∧
      (Timestamp.ofDateTime date hour minute second).secondOfMinute = second := by
  have hSeconds := second_ofDateTime date hour minute second
  have hDay : (Timestamp.ofDateTime date hour minute second).dayNumber = date.toDayNumber := by
    rw [Timestamp.dayNumber, hSeconds]
    omega
  have hClock : (Timestamp.ofDateTime date hour minute second).secondOfDay =
      hour * 3600 + minute * 60 + second := by
    rw [Timestamp.secondOfDay, hSeconds]
    omega
  have hNumber := Date.ofDayNumber_spec date.toDayNumber
  refine ⟨?_, ?_, ?_, ?_⟩
  · rw [Timestamp.date, hDay]
    exact eq_of_toDayNumber_eq hNumber.1 hDate hNumber.2
  · rw [Timestamp.hour, hClock]
    omega
  · rw [Timestamp.minute, hClock]
    omega
  · rw [Timestamp.secondOfMinute, hClock]
    omega

theorem ofDateTime_parts {t : Timestamp} (hWhole : t.nanosecond = 0) :
    Timestamp.ofDateTime t.date t.hour t.minute t.secondOfMinute = t := by
  obtain ⟨second, nanosecond⟩ := t
  obtain rfl : nanosecond = 0 := hWhole
  have hSecond := second_eq ⟨second, 0⟩
  simp only [Timestamp.ofDateTime, Timestamp.mk.injEq, and_true]
  exact hSecond.symm

/-- A listed instant has listed parts, and is made of them. -/
theorem Fields.Lists.listsParts {fields : Fields} {t : Timestamp} (h : fields.Lists t)
    (hYears : fields.years = FieldRange.years.values) :
    fields.ListsParts (partsOf t) ∧ instantOfParts (partsOf t) = t := by
  obtain ⟨year, hMem, hYear⟩ := h.year
  have hValid := isValid_date t
  have hClock := clock_bounds t
  have hRange : 1970 ≤ year ∧ year ≤ 2100 := by
    rw [hYears] at hMem
    exact (FieldRange.mem_between_iff _ _ _).mp hMem
  have hParts : partsOf t = year :: boundsOf t := by
    rw [partsOf, hYear, Int.toNat_natCast]
  have hDate : t.date = ⟨year, t.date.month, t.date.day⟩ := by rw [← hYear]
  have hLength : t.date.day ≤ daysInMonth year t.date.month := by
    rw [← hYear]
    exact hValid.2
  have hWeekday : fields.hasWeekday ⟨year, t.date.month, t.date.day⟩ = true := by
    rw [← hDate]
    exact List.contains_iff_mem.mpr h.weekday
  rw [hParts]
  refine ⟨⟨hMem, hRange, h.month, hValid.month_bounds, h.day, ⟨hValid.1, hLength⟩, hWeekday,
    h.hour, ⟨Nat.zero_le _, hClock.1⟩, h.minute, ⟨Nat.zero_le _, hClock.2.1⟩, h.second,
    ⟨Nat.zero_le _, hClock.2.2⟩, rfl⟩, ?_⟩
  change Timestamp.ofDateTime ⟨year, t.date.month, t.date.day⟩ _ _ _ = t
  rw [← hDate]
  exact ofDateTime_parts h.whole

/-- Listed parts are those of a listed instant. -/
theorem Fields.ListsParts.exists_lists {fields : Fields} {values : List Nat}
    (h : fields.ListsParts values) :
    ∃ t, fields.Lists t ∧ partsOf t = values ∧ instantOfParts values = t := by
  match values, h with
  | year :: month :: day :: time, ⟨hYear, _, hMonth, hMonthRange, hDay, hLength, hWeekday, hTime⟩ =>
      obtain ⟨hour, minute, second, rfl⟩ := hTime.exists_parts
      obtain ⟨hHour, hHourRange, hMinute, hMinuteRange, hSecond, hSecondRange, -⟩ := hTime
      have hValid : (Date.mk year month day).IsValid := hLength
      obtain ⟨hDate, hHourOf, hMinuteOf, hSecondOf⟩ :=
        parts_ofDateTime hValid hHourRange.2 hMinuteRange.2 hSecondRange.2
      refine ⟨Timestamp.ofDateTime ⟨year, month, day⟩ hour minute second, ?_, ?_, rfl⟩
      · constructor
        · exact ⟨year, hYear, by rw [hDate]⟩
        · rwa [hDate]
        · rwa [hDate]
        · rw [hDate]
          exact List.contains_iff_mem.mp hWeekday
        · rwa [hHourOf]
        · rwa [hMinuteOf]
        · rwa [hSecondOf]
        · rfl
      · simp only [partsOf, boundsOf, hDate, hHourOf, hMinuteOf, hSecondOf, Int.toNat_natCast]

/-- The order of the parts is the order of the seconds. -/
theorem notBefore_partsOf_iff {a b : Timestamp} (hA : 0 ≤ a.date.year) (hB : 0 ≤ b.date.year) :
    NotBefore (partsOf a) (partsOf b) ↔ a.second ≤ b.second := by
  have hValidA := isValid_date a
  have hValidB := isValid_date b
  have hClockA := clock_bounds a
  have hClockB := clock_bounds b
  have hSecondA := second_eq a
  have hSecondB := second_eq b
  simp only [partsOf, boundsOf, NotBefore, and_true]
  by_cases hBefore : a.date.Before b.date
  · have := hBefore.toDayNumber_lt hValidA hValidB
    simp only [Date.Before] at hBefore
    omega
  · by_cases hAfter : b.date.Before a.date
    · have := hAfter.toDayNumber_lt hValidB hValidA
      simp only [Date.Before] at hAfter hBefore
      omega
    · rw [eq_of_not_before hBefore hAfter] at hSecondA ⊢
      omega

/-- The search gives the first listed instant after the given one, if it starts a second later
in the years of cron expressions or past them. -/
theorem Fields.nextAfter?_spec {fields : Fields} (hYears : fields.years = FieldRange.years.values)
    {after start : Timestamp} (hStart : after.addSeconds? 1 = some start)
    (hSecond : start.second = after.second + 1) (hEra : 1970 ≤ start.date.year) :
    (∃ next, fields.nextAfter? after = some next ∧ fields.Lists next ∧ after < next ∧
      ∀ other, fields.Lists other → after < other → next ≤ other) ∨
    (fields.nextAfter? after = none ∧ ∀ other, fields.Lists other → ¬ after < other) := by
  have hFirst := isFirst_nextAfter? hYears hStart hEra
  have hYear {t : Timestamp} (h : fields.Lists t) : 0 ≤ t.date.year := by
    obtain ⟨year, -, hYear⟩ := h.year
    omega
  have hPast {t : Timestamp} (h : fields.Lists t) :
      NotBefore (partsOf start) (partsOf t) ↔ after < t := by
    rw [notBefore_partsOf_iff (by omega) (hYear h), Timestamp.lt_iff, h.whole]
    omega
  cases hFound : fields.nextAfter? after with
  | none =>
      rw [hFound] at hFirst
      exact Or.inr ⟨rfl, fun other hOther hLater =>
        hFirst _ (hOther.listsParts hYears).1 ((hPast hOther).mpr hLater)⟩
  | some next =>
      rw [hFound] at hFirst
      obtain ⟨values, rfl, hListed, hNotBefore, hLeast⟩ := hFirst
      obtain ⟨t, hLists, rfl, hBuild⟩ := hListed.exists_lists
      rw [hBuild]
      refine Or.inl ⟨t, rfl, hLists, (hPast hLists).mp hNotBefore, fun other hOther hLater => ?_⟩
      have hOrder := hLeast _ (hOther.listsParts hYears).1 ((hPast hOther).mpr hLater)
      rw [notBefore_partsOf_iff (hYear hLists) (hYear hOther)] at hOrder
      rw [Timestamp.le_iff_not_lt, Timestamp.lt_iff, hLists.whole]
      omega

end Cron

end PipelineUpkeep

import PipelineUpkeep.Proofs.WeekdayDenotation
import PipelineUpkeep.Schedule.Rows
/-!
# The spellings of Sunday

Sunday is the day zero of a weekday field, the day seven, and `SUN` in any case.  An item that
is one day by itself may be spelled in each of these ways, and so may a day with a step, but
for one: the days of a step run up to Saturday, the day six, so there are none from seven on,
and a field with such an item is rejected.  Fields that are expanded alike make no difference
to the runs of a schedule.
-/

namespace PipelineUpkeep

open Text Time

namespace Cron

/-! ## One item in place of another -/

/-- The pieces between separators hold none. -/
theorem not_mem_of_mem_splitOn {separator : Char} {text piece : List Char}
    (h : piece ∈ text.splitOn separator) : separator ∉ piece := by
  induction text generalizing piece with
  | nil =>
      rw [List.splitOn_nil, List.mem_singleton] at h
      rw [h]
      exact List.not_mem_nil
  | cons c rest ih =>
      rw [List.splitOn_cons_eq_if_modifyHead] at h
      split at h
      · rcases List.mem_cons.mp h with rfl | hRest
        · exact List.not_mem_nil
        · exact ih hRest
      · rename_i hOther
        obtain ⟨first, more, hPieces⟩ :=
          List.exists_cons_of_ne_nil (List.splitOn_ne_nil separator rest)
        rw [hPieces] at h ih
        rcases List.mem_cons.mp h with rfl | hMore
        · rw [List.mem_cons, not_or]
          exact ⟨fun hSame => hOther (beq_iff_eq.mpr hSame.symm), ih List.mem_cons_self⟩
        · exact ih (List.mem_cons_of_mem _ hMore)

/-- The field with another item at a place. -/
def withItem (field : List Char) (i : Nat) (item : List Char) : List Char :=
  [','].intercalate ((field.splitOn ',').set i item)

theorem splitOn_withItem {item : List Char} (h : ',' ∉ item) (field : List Char) (i : Nat) :
    (withItem field i item).splitOn ',' = (field.splitOn ',').set i item := by
  refine List.splitOn_intercalate ',' (fun piece hPiece => ?_) (by simp [List.splitOn_ne_nil])
  rcases List.mem_or_eq_of_mem_set hPiece with hOld | rfl
  · exact not_mem_of_mem_splitOn hOld
  · exact h

section Items

variable {items : List (List Char)} {i : Nat} {old new : List Char}

theorem mapM_set_eq (hOld : items[i]? = some old)
    (hSame : weekdayItemDays new = weekdayItemDays old) :
    (items.set i new).mapM weekdayItemDays = items.mapM weekdayItemDays := by
  induction items generalizing i with
  | nil => rfl
  | cons item rest ih =>
      cases i with
      | zero =>
          obtain rfl : item = old := by simpa using hOld
          rw [List.set_cons_zero, List.mapM_cons, List.mapM_cons, hSame]
      | succ i => rw [List.set_cons_succ, List.mapM_cons, List.mapM_cons, ih (by simpa using hOld)]

theorem exists_of_mapM_eq_ok {sets : List (List Nat)} {item : List Char}
    (hItems : items.mapM weekdayItemDays = .ok sets) (hItem : item ∈ items) :
    ∃ days, weekdayItemDays item = .ok days := by
  have hSets := forall₂_of_mapM_eq_ok hItems
  clear hItems
  induction hSets with
  | nil => cases hItem
  | cons hFirst _ ih =>
      rcases List.mem_cons.mp hItem with rfl | hRest
      · exact ⟨_, hFirst⟩
      · exact ih hRest

/-- The only item that cannot be read decides the error. -/
theorem mapM_set_eq_error {sets : List (List Nat)} {error : WeekdayError}
    (hItems : items.mapM weekdayItemDays = .ok sets) (hOld : items[i]? = some old)
    (hNew : weekdayItemDays new = .error error) :
    (items.set i new).mapM weekdayItemDays = .error error := by
  induction items generalizing i sets with
  | nil => simp at hOld
  | cons item rest ih =>
      rw [List.mapM_cons] at hItems
      obtain ⟨days, hItem, hItems⟩ := exists_of_bind_eq_ok hItems
      obtain ⟨more, hRest, -⟩ := exists_of_bind_eq_ok hItems
      cases i with
      | zero =>
          rw [List.set_cons_zero, List.mapM_cons, hNew]
          rfl
      | succ i =>
          rw [List.set_cons_succ, List.mapM_cons, hItem, ih hRest (by simpa using hOld)]
          rfl

end Items

/-- A field with an item that is no mark is no mark either. -/
theorem ofChars_of_item {field item : List Char} {i : Nat}
    (hItem : (field.splitOn ',')[i]? = some item) (hStar : item ≠ ['*'])
    (hQuestion : item ≠ ['?']) :
    WeekdayField.ofChars field = ((field.splitOn ',').mapM weekdayItemDays).map fun sets =>
      .days ((List.range 7).filter fun day => sets.any (·.contains day)) := by
  have hOther {mark : Char} (hMark : mark ≠ ',') (hDiffers : item ≠ [mark]) : field ≠ [mark] := by
    rintro rfl
    have hMem := List.mem_of_getElem? hItem
    rw [List.splitOn_eq_singleton (by simpa using hMark.symm)] at hMem
    exact hDiffers (List.mem_singleton.mp hMem)
  rw [WeekdayField.ofChars, if_neg (hOther (by decide) hStar),
    if_neg (hOther (by decide) hQuestion)]
  cases (field.splitOn ',').mapM weekdayItemDays <;> rfl

/-! ## Days as items -/

/-- What follows the day in an item that is one day: nothing, or a slash and a step. -/
def IsDayEnd (ending : List Char) : Prop :=
  ending = [] ∨ ∃ step, ending = '/' :: step

/-- The other spellings of the day zero: seven, and the name in any case. -/
def SpellsSunday (token : List Char) : Prop :=
  token = ['7'] ∨ token.map Char.toUpper = ['S', 'U', 'N']

theorem SpellsSunday.namesDay {token : List Char} (h : SpellsSunday token) :
    (token = ['7'] ∧ NamesDay token 7) ∨ (token ≠ ['7'] ∧ NamesDay token 0) := by
  by_cases hSeven : token = ['7']
  · rw [hSeven]
    obtain ⟨hWrites, hBound⟩ : WritesNumber ['7'] 7 ∧ 7 ≤ 7 := readNatUpTo?_eq_some_iff.mp rfl
    exact .inl ⟨rfl, .number hWrites hBound⟩
  · exact .inr ⟨hSeven, .name (congrArg some (h.resolve_left hSeven).symm)⟩

/-- A spelling of Sunday consists of its letters and the seven. -/
theorem SpellsSunday.not_mem {token : List Char} (h : SpellsSunday token) {c : Char}
    (hOther : c.toUpper ∉ ['7', 'S', 'U', 'N']) : c ∉ token := by
  intro hC
  rcases h with rfl | hName
  · rw [List.mem_singleton.mp hC] at hOther
    exact hOther (by decide)
  · have hUpper : c.toUpper ∈ token.map Char.toUpper := List.mem_map_of_mem hC
    rw [hName] at hUpper
    exact hOther (List.mem_cons_of_mem _ hUpper)

theorem SpellsSunday.append_ne_singleton {token : List Char} (h : SpellsSunday token) {c : Char}
    (hOther : c.toUpper ∉ ['7', 'S', 'U', 'N']) (ending : List Char) : token ++ ending ≠ [c] := by
  intro hSame
  have hSome : token ≠ [] := by
    rcases h.namesDay with ⟨-, hDay⟩ | ⟨-, hDay⟩ <;> exact hDay.plain_chars.1
  obtain ⟨first, rest, rfl⟩ := List.exists_cons_of_ne_nil hSome
  obtain ⟨rfl, -⟩ := List.cons.inj hSame
  exact h.not_mem hOther List.mem_cons_self

theorem namesDay_zero : NamesDay ['0'] 0 := by
  obtain ⟨hWrites, hBound⟩ : WritesNumber ['0'] 0 ∧ 0 ≤ 7 := readNatUpTo?_eq_some_iff.mp rfl
  exact .number hWrites hBound

/-- A day without a step. -/
theorem weekdayItemDays_day {token : List Char} {day : Nat} (h : NamesDay token day) :
    weekdayItemDays token = .ok [day % 7] := by
  have hOnce : steppedDays day day 1 = [day] := by simp [steppedDays]
  rw [weekdayItemDays_eq (splitStep_of_not_mem h.plain_chars.2.2.2) (.day h),
    if_neg (Nat.lt_irrefl day), Option.getD_none, hOnce, List.map_singleton]

/-- A day with a step stands for every so many days up to Saturday. -/
theorem weekdayItemDays_fromDay {token step : List Char} {day n : Nat} (h : NamesDay token day)
    (hStep : WritesNumber step n) (hPositive : 0 < n) (hBound : n ≤ bound64 - 1) :
    weekdayItemDays (token ++ '/' :: step) =
      if day > 6 then .error (.range token) else .ok ((steppedDays day 6 n).map (· % 7)) := by
  have hSplit := splitStep_append h.plain_chars.2.2.2 hStep hPositive
  rw [if_pos hBound] at hSplit
  exact weekdayItemDays_eq hSplit (.fromDay h)

/-- The step behind the day of an item that can be read. -/
theorem exists_step_of_weekdayItemDays {token step : List Char} {days : List Nat}
    (hToken : '/' ∉ token) (h : weekdayItemDays (token ++ '/' :: step) = .ok days) :
    ∃ n, WritesNumber step n ∧ 0 < n ∧ n ≤ bound64 - 1 := by
  obtain ⟨range, found, -, -, hSplit, -⟩ := exists_parts_of_weekdayItemDays h
  rw [splitStep, splitAtFirst?_append hToken] at hSplit
  simp only at hSplit
  split at hSplit
  · rename_i n hNumber
    obtain ⟨hWrites, hBound⟩ := readNatUpTo?_eq_some_iff.mp hNumber
    exact ⟨n + 1, hWrites, Nat.succ_pos n, hBound⟩
  · cases hSplit

/-- What becomes of an item whose day zero is spelled in another way. -/
theorem weekdayItemDays_sunday {token ending : List Char} {days : List Nat}
    (hEnding : IsDayEnd ending) (hToken : SpellsSunday token)
    (hZero : weekdayItemDays ('0' :: ending) = .ok days) :
    weekdayItemDays (token ++ ending) =
      if token = ['7'] ∧ ending ≠ [] then .error (.range ['7']) else .ok days := by
  rcases hEnding with rfl | ⟨step, rfl⟩
  · rw [weekdayItemDays_day namesDay_zero] at hZero
    rw [List.append_nil, if_neg (by simp), ← hZero]
    rcases hToken.namesDay with ⟨-, hDay⟩ | ⟨-, hDay⟩ <;> rw [weekdayItemDays_day hDay]
  · -- The step is read behind the zero, so it is read behind any other day.
    obtain ⟨n, hStep, hPositive, hBound⟩ :=
      exists_step_of_weekdayItemDays (by decide : '/' ∉ ['0']) hZero
    have hFromZero := weekdayItemDays_fromDay namesDay_zero hStep hPositive hBound
    rw [List.singleton_append, hZero] at hFromZero
    rcases hToken.namesDay with ⟨rfl, hDay⟩ | ⟨hOther, hDay⟩
    · rw [weekdayItemDays_fromDay hDay hStep hPositive hBound]
      rfl
    · rw [weekdayItemDays_fromDay hDay hStep hPositive hBound]
      simp only [hOther, false_and, if_false]
      exact hFromZero.symm

/-- What becomes of a field. -/
theorem ofChars_withItem_sunday {field token ending : List Char} {i : Nat}
    {expanded : WeekdayField} (hAccepted : WeekdayField.ofChars field = .ok expanded)
    (hItem : (field.splitOn ',')[i]? = some ('0' :: ending)) (hEnding : IsDayEnd ending)
    (hToken : SpellsSunday token) :
    WeekdayField.ofChars (withItem field i (token ++ ending)) =
      if token = ['7'] ∧ ending ≠ [] then .error (.range ['7']) else .ok expanded := by
  have hComma : ',' ∉ token ++ ending := by
    have hOld := not_mem_of_mem_splitOn (List.mem_of_getElem? hItem)
    rw [List.mem_append, not_or]
    exact ⟨hToken.not_mem (by decide), fun hMem => hOld (List.mem_cons_of_mem _ hMem)⟩
  have hLength : i < (field.splitOn ',').length := (List.getElem?_eq_some_iff.mp hItem).1
  have hNew : ((withItem field i (token ++ ending)).splitOn ',')[i]? =
      some (token ++ ending) := by
    rw [splitOn_withItem hComma, List.getElem?_set_self hLength]
  rw [ofChars_of_item hItem (by simp) (by simp)] at hAccepted
  rw [ofChars_of_item hNew (hToken.append_ne_singleton (by decide) ending)
    (hToken.append_ne_singleton (by decide) ending), splitOn_withItem hComma]
  cases hSets : (field.splitOn ',').mapM weekdayItemDays with
  | error error =>
      rw [hSets] at hAccepted
      cases hAccepted
  | ok sets =>
      rw [hSets] at hAccepted
      obtain ⟨days, hDays⟩ := exists_of_mapM_eq_ok hSets (List.mem_of_getElem? hItem)
      have hItemNew := weekdayItemDays_sunday hEnding hToken hDays
      split
      · rename_i hSeven
        rw [if_pos hSeven] at hItemNew
        rw [mapM_set_eq_error hSets hItem hItemNew]
        rfl
      · rename_i hOther
        rw [if_neg hOther] at hItemNew
        rw [mapM_set_eq hItem (hItemNew.trans hDays.symm), hSets]
        exact hAccepted

end Cron

/-! ## Schedules -/

/-- The expressions of two schedules have five words each, of which the first four are the
same and the last ones are these fields. -/
def Schedule.DiffersInWeekdays (schedule twin : Schedule) (field other : List Char) : Prop :=
  ∃ minute hour dayOfMonth month,
    words (trim schedule.cron.toList) = [minute, hour, dayOfMonth, month, field] ∧
    words (trim twin.cron.toList) = [minute, hour, dayOfMonth, month, other]

theorem Schedule.nextRunAfter_eq_ok_iff {schedule : Schedule} {now next : Timestamp} :
    schedule.nextRunAfter now = .ok next ↔
      ∃ fields, Cron.Fields.ofExpression schedule.cron = .ok fields ∧
        fields.nextAfter? now = some next := by
  rw [nextRunAfter]
  cases Cron.Fields.ofExpression schedule.cron with
  | error error => exact ⟨nofun, nofun⟩
  | ok fields =>
      cases hNext : fields.nextAfter? now <;> simp [bind, Except.bind, hNext]

namespace Cron

section Expressions

variable {expression : String} {minute hour dayOfMonth month field : List Char}

/-- An expression of five words is read by the expansion of its weekday field. -/
theorem ofExpression_eq_ok_iff {expanded : WeekdayField} {fields : Fields}
    (hWords : words (trim expression.toList) = [minute, hour, dayOfMonth, month, field])
    (hField : WeekdayField.ofChars field = .ok expanded) :
    Fields.ofExpression expression = .ok fields ↔
      Fields.ofChars?
          ([' '].intercalate [['0'], minute, hour, dayOfMonth, month, expanded.toChars]) =
        some fields := by
  simp only [Fields.ofExpression, normalize, hWords, hField]
  cases Fields.ofChars? _ <;> simp

theorem ofExpression_of_rejected {error : WeekdayError}
    (hWords : words (trim expression.toList) = [minute, hour, dayOfMonth, month, field])
    (hField : WeekdayField.ofChars field = .error error) :
    Fields.ofExpression expression =
      .error (.invalidCron (String.ofList (trim expression.toList)) error.message) := by
  simp only [Fields.ofExpression, normalize, hWords, hField]

end Expressions

/-- One field may stand for the other: it is expanded alike, or rejected alike, and the
schedules have the same runs. -/
structure Interchangeable (field other : List Char) : Prop where
  expansion : WeekdayField.ofChars other = WeekdayField.ofChars field
  runs : ∀ schedule twin : Schedule, schedule.DiffersInWeekdays twin field other →
    ∀ now next, twin.nextRunAfter now = .ok next ↔ schedule.nextRunAfter now = .ok next

/-- No expression with this weekday field is accepted. -/
structure IsRejected (field : List Char) (error : WeekdayError) : Prop where
  expansion : WeekdayField.ofChars field = .error error
  runs : ∀ schedule : Schedule,
    (∃ minute hour dayOfMonth month,
      words (trim schedule.cron.toList) = [minute, hour, dayOfMonth, month, field]) →
    ∀ now, schedule.nextRunAfter now =
      .error (.invalidCron (String.ofList (trim schedule.cron.toList)) error.message)

theorem isRejected_of_ofChars {field : List Char} {error : WeekdayError}
    (h : WeekdayField.ofChars field = .error error) : IsRejected field error where
  expansion := h
  runs := by
    rintro schedule ⟨minute, hour, dayOfMonth, month, hWords⟩ now
    rw [Schedule.nextRunAfter, ofExpression_of_rejected hWords h]
    rfl

theorem interchangeable_of_ofChars {field other : List Char} {expanded : WeekdayField}
    (hField : WeekdayField.ofChars field = .ok expanded)
    (hOther : WeekdayField.ofChars other = .ok expanded) : Interchangeable field other where
  expansion := hOther.trans hField.symm
  runs := by
    rintro schedule twin ⟨minute, hour, dayOfMonth, month, hWords, hTwin⟩ now next
    simp only [Schedule.nextRunAfter_eq_ok_iff, ofExpression_eq_ok_iff hWords hField,
      ofExpression_eq_ok_iff hTwin hOther]

/-- A day zero that is an item by itself or stands before a step may be spelled in the other
ways as well, but for the seven before a step: a field with that is rejected. -/
theorem sunday_spellings_interchange {field token ending : List Char} {i : Nat}
    (hAccepted : ∃ expanded, WeekdayField.ofChars field = .ok expanded)
    (hItem : (field.splitOn ',')[i]? = some ('0' :: ending)) (hEnding : IsDayEnd ending)
    (hToken : SpellsSunday token) :
    (token ≠ ['7'] ∨ ending = [] → Interchangeable field (withItem field i (token ++ ending))) ∧
    (token = ['7'] → ending ≠ [] →
      IsRejected (withItem field i (token ++ ending)) (.range ['7'])) := by
  obtain ⟨expanded, hField⟩ := hAccepted
  have hOther := ofChars_withItem_sunday hField hItem hEnding hToken
  constructor
  · intro hSpelling
    rw [if_neg (by tauto)] at hOther
    exact interchangeable_of_ofChars hField hOther
  · intro hSeven hStep
    rw [if_pos ⟨hSeven, hStep⟩] at hOther
    exact isRejected_of_ofChars hOther

/-- The first item of `0,3`, and the second one of `1,0/2`, for which the seven is no spelling. -/
theorem sunday_spellings_interchange_lists :
    Interchangeable "0,3".toList "7,3".toList ∧
      Interchangeable "1,0/2".toList "1,Sun/2".toList ∧
      IsRejected "1,7/2".toList (.range ['7']) := by
  have hPlain := sunday_spellings_interchange ⟨_, rfl⟩
    (rfl : ("0,3".toList.splitOn ',')[0]? = some ['0']) (.inl rfl) (.inl rfl)
  have hStepped : ("1,0/2".toList.splitOn ',')[1]? = some ('0' :: "/2".toList) := rfl
  have hName := sunday_spellings_interchange ⟨_, rfl⟩ hStepped (.inr ⟨_, rfl⟩)
    (.inr rfl : SpellsSunday "Sun".toList)
  have hSeven := sunday_spellings_interchange ⟨_, rfl⟩ hStepped (.inr ⟨_, rfl⟩) (.inl rfl)
  exact ⟨hPlain.1 (.inr rfl), hName.1 (.inl (by decide)), hSeven.2 rfl (by decide)⟩

end Cron

/-- A schedule with an expression. -/
def Schedule.ofCron (cron : String) : Schedule :=
  { (default : Schedule) with cron }

/-- Every other day from Sunday on has a run on Saturday, the second of March 2024, but none if
Sunday is the seven. -/
theorem Schedule.seven_with_step_has_no_run :
    (∃ expanded, Cron.WeekdayField.ofChars "0/2".toList = .ok expanded) ∧
      ("0/2".toList.splitOn ',')[0]? = some ('0' :: "/2".toList) ∧
      Cron.withItem "0/2".toList 0 ('7' :: "/2".toList) = "7/2".toList ∧
      (¬∃ expanded, Cron.WeekdayField.ofChars "7/2".toList = .ok expanded) ∧
      (ofCron "0 9 * * 0/2").nextRunAfter ⟨1709287200, 0⟩ =
        .ok (Timestamp.ofDateTime ⟨2024, 3, 2⟩ 9 0 0) ∧
      ∀ next, (ofCron "0 9 * * 7/2").nextRunAfter ⟨1709287200, 0⟩ ≠ .ok next := by
  refine ⟨⟨_, rfl⟩, rfl, rfl, ?_, rfl, ?_⟩
  · rintro ⟨expanded, hAccepted⟩
    have hRejected : Cron.WeekdayField.ofChars "7/2".toList = .error (.range ['7']) := rfl
    rw [hRejected] at hAccepted
    cases hAccepted
  · intro next hNext
    have hRejected : (ofCron "0 9 * * 7/2").nextRunAfter ⟨1709287200, 0⟩ =
        .error (.invalidCron "0 9 * * 7/2" "invalid day-of-week range '7'") := rfl
    rw [hRejected] at hNext
    cases hNext

end PipelineUpkeep

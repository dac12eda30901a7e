import PipelineUpkeep.Proofs.FieldLocality
/-!
# Written lists of values

Values of a field may be written one after the other with commas between them.  Such a text is
one word, each of its numerals is read as a point up to the comma behind it, and the whole word
is read as exactly the written values.
-/

namespace PipelineUpkeep.Cron

open Text

theorem unbroken_of_no_blank {text : List Char} (h : ∀ c ∈ text, isBlank c = false) :
    Unbroken text := by
  intro c hC
  have hBlank := h c hC
  refine Bool.eq_false_iff.mpr fun hGap => ?_
  simp only [isGap, Bool.or_eq_true, beq_iff_eq] at hGap
  rcases hGap with ((rfl | rfl) | rfl) | rfl <;> cases hBlank

theorem unbroken_natDigits (n : Nat) : Unbroken (natDigits n) :=
  unbroken_of_no_blank fun _ hC => isBlank_of_isDigit (isDigit_of_mem_natDigits hC)

/-! ## Values behind commas -/

/-- The numerals of values, each behind a comma. -/
def commaValues (values : List Nat) : List Char :=
  values.flatMap fun value => ',' :: natDigits value

theorem commaValues_cons (value : Nat) (values : List Nat) :
    commaValues (value :: values) = ',' :: (natDigits value ++ commaValues values) := by
  simp [commaValues]

theorem intercalate_natDigits (value : Nat) (values : List Nat) :
    [','].intercalate ((value :: values).map natDigits) =
      natDigits value ++ commaValues values := by
  induction values generalizing value with
  | nil => simp [List.intercalate, commaValues]
  | cons next more ih =>
      have hMore := ih next
      rw [List.map_cons] at hMore
      simp [List.intercalate_cons_cons, hMore, commaValues_cons]

theorem unbroken_commaValues (values : List Nat) : Unbroken (commaValues values) := by
  intro c hC
  obtain ⟨value, -, hValue⟩ := List.mem_flatMap.mp hC
  rcases List.mem_cons.mp hValue with rfl | hDigit
  · rfl
  · exact unbroken_natDigits value c hDigit

theorem unbroken_append_commaValues (value : Nat) (values : List Nat) :
    Unbroken (natDigits value ++ commaValues values) := by
  intro c hC
  rcases List.mem_append.mp hC with hDigit | hRest
  · exact unbroken_natDigits value c hDigit
  · exact unbroken_commaValues values c hRest

theorem unbroken_intercalate_natDigits (values : List Nat) :
    Unbroken ([','].intercalate (values.map natDigits)) := by
  cases values with
  | nil => exact fun _ hNone => absurd hNone List.not_mem_nil
  | cons value values =>
      rw [intercalate_natDigits]
      exact unbroken_append_commaValues value values

theorem eq_comma_of_head?_commaValues {values : List Nat} {c : Char}
    (h : (commaValues values).head? = some c) : c = ',' := by
  cases values with
  | nil => cases h
  | cons value values =>
      rw [commaValues_cons] at h
      exact (Option.some.inj h).symm

theorem readChar?_commaValues {mark : Char} (hMark : ',' ≠ mark) (values : List Nat) :
    readChar? mark (commaValues values) = none := by
  cases values with
  | nil => rfl
  | cons value values =>
      rw [commaValues_cons]
      exact if_neg hMark

/-! ## Reading numerals -/

section

variable {value : Nat} (values : List Nat)

theorem readMark?_natDigits {mark : Char} (hMark : isDigit mark = false) :
    readMark? mark (natDigits value ++ commaValues values) = none := by
  rw [readMark?, skipBlanks_of_unbroken (unbroken_append_commaValues value values)]
  cases hDigits : natDigits value with
  | nil => exact absurd hDigits (natDigits_ne_nil value)
  | cons c rest =>
      have hMem : c ∈ natDigits value := by simp [hDigits]
      have hOther : c ≠ mark := by
        rintro rfl
        rw [isDigit_of_mem_natDigits hMem] at hMark
        cases hMark
      simp [readChar?, hOther]

theorem readNumber?_natDigits_commaValues (hValue : value < bound32) :
    readNumber? (natDigits value ++ commaValues values) = some (value, commaValues values) := by
  have hSpan : spanDigits (natDigits value ++ commaValues values) =
      (natDigits value, commaValues values) :=
    spanDigits_digits (fun _ hC => isDigit_of_mem_natDigits hC) fun c hHead => by
      rw [eq_comma_of_head?_commaValues hHead]
      rfl
  rw [readNumber?, skipBlanks_of_unbroken (unbroken_append_commaValues value values), hSpan]
  simp [natDigits_ne_nil, hValue, skipBlanks_of_unbroken (unbroken_commaValues values)]

theorem readShape?_natDigits (hValue : value < bound32) (questionMark : Bool) :
    readShape? questionMark (natDigits value ++ commaValues values) =
      some (.point value, commaValues values) := by
  have hNumber := readNumber?_natDigits_commaValues values hValue
  have hDashed : readDashed? readNumber? (natDigits value ++ commaValues values) = none := by
    simp [readDashed?, hNumber, readChar?_commaValues]
  cases questionMark <;> simp [readShape?, readMark?_natDigits, isDigit, hDashed, hNumber]

theorem readItem?_natDigits (hValue : value < bound32) (questionMark : Bool) :
    readItem? questionMark (natDigits value ++ commaValues values) =
      some (.plain (.point value), commaValues values) := by
  have hShape := readShape?_natDigits values hValue questionMark
  have hStepped : readStepped? questionMark (natDigits value ++ commaValues values) = none := by
    simp [readStepped?, hShape, readChar?_commaValues]
  simp [readItem?, hStepped, hShape]

end

theorem readMoreItems_commaValues (questionMark : Bool) {values : List Nat} {count : Nat}
    (hValues : ∀ value ∈ values, value < bound32) (hCount : values.length ≤ count) :
    readMoreItems questionMark count (commaValues values) =
      (values.map fun value => .plain (.point value), []) := by
  induction values generalizing count with
  | nil => cases count <;> rfl
  | cons value values ih =>
      obtain ⟨count, rfl⟩ : ∃ fewer, count = fewer + 1 :=
        ⟨count - 1, by rw [List.length_cons] at hCount; omega⟩
      have hChar : readChar? ',' (commaValues (value :: values)) =
          some ((), natDigits value ++ commaValues values) := by
        rw [commaValues_cons]
        rfl
      have hItem := readItem?_natDigits values (hValues value List.mem_cons_self) questionMark
      have hMore := ih (fun other hOther => hValues other (List.mem_cons_of_mem _ hOther))
        (Nat.le_of_succ_le_succ hCount)
      simp only [readMoreItems, hChar, hItem, hMore, List.map_cons]

theorem length_le_length_commaValues (values : List Nat) :
    values.length ≤ (commaValues values).length := by
  induction values with
  | nil => exact Nat.le_refl 0
  | cons value values ih =>
      rw [commaValues_cons]
      simp only [List.length_cons, List.length_append]
      omega

/-! ## Whole fields -/

theorem mapM_points {range : FieldRange} {values : List Nat}
    (hValues : ∀ value ∈ values, range.admits value = true) :
    (values.map fun value => Item.plain (.point value)).mapM (Item.values? range) =
      some (values.map fun value => [value]) := by
  induction values with
  | nil => rfl
  | cons value values ih =>
      have hMore := ih fun other hOther => hValues other (List.mem_cons_of_mem _ hOther)
      have hPoint : Item.values? range (.plain (.point value)) = some [value] :=
        if_pos (hValues value List.mem_cons_self)
      rw [List.map_cons, List.mapM_cons, hPoint, hMore]
      rfl

/-- Written values of a field are read as themselves, in increasing order. -/
theorem readField?_intercalate {range : FieldRange} {values : List Nat} (hSome : values ≠ [])
    (hValues : ∀ value ∈ values, range.admits value = true) (hLast : range.last < bound32) :
    readField? range ([','].intercalate (values.map natDigits)) =
      some (range.values.filter (values.contains ·), []) := by
  have hBound (value : Nat) (hValue : value ∈ values) : value < bound32 := by
    have hAdmits := hValues value hValue
    simp only [FieldRange.admits, Bool.and_eq_true, decide_eq_true_eq] at hAdmits
    exact Nat.lt_of_le_of_lt hAdmits.2 hLast
  cases values with
  | nil => exact absurd rfl hSome
  | cons value values =>
      have hItem := readItem?_natDigits values (hBound value List.mem_cons_self) range.questionMark
      have hMore := readMoreItems_commaValues range.questionMark
        (fun other hOther => hBound other (List.mem_cons_of_mem _ hOther))
        (length_le_length_commaValues values)
      have hItems : readItems? range.questionMark (natDigits value ++ commaValues values) =
          some ((value :: values).map fun value => .plain (.point value), []) := by
        rw [readItems?, skipBlanks_of_unbroken (unbroken_append_commaValues value values), hItem]
        simp [hMore, skipBlanks]
      have hFound : fieldValues? range
          ((value :: values).map fun value => .plain (.point value)) =
          some (range.values.filter ((value :: values).contains ·)) := by
        have hAny (other : Nat) :
            ((value :: values).map fun value => [value]).any (·.contains other) =
              (value :: values).contains other := by
          rw [Bool.eq_iff_iff]
          simp
        rw [fieldValues?, mapM_points hValues, Option.map_some]
        simp only [hAny]
      rw [intercalate_natDigits, readField?, hItems]
      simp only [Option.bind_eq_bind, Option.bind_some, hFound]

end PipelineUpkeep.Cron

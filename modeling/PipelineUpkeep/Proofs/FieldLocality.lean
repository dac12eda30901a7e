import PipelineUpkeep.Proofs.DecimalLaws
import PipelineUpkeep.Schedule.CronText
/-!
# A field by itself and in front of others

A field of a cron expression ends where no further item can be read; a blank does not end it.
So a word may be read as two fields, or two words as one.  A word that is a field by itself is
read as this field in front of other words too, unless the next one begins with a mark that
joins two parts of a field: it does not end in such a mark itself, so none of its readers ever
looks past a blank, neither where it succeeds nor where it gives way to an alternative.
`IsLocal` says this of a reader, and is built up as the readers are.
-/

namespace PipelineUpkeep.Cron

open Text

variable {α β γ : Type}

/-- A mark that joins two parts of a field. -/
def isMark (c : Char) : Bool :=
  c == ',' || c == '/' || c == '-'

/-- A blank of cron expressions. -/
def isGap (c : Char) : Bool :=
  c == ' ' || c == '\t' || c == '\n' || c == '\r'

theorem skipBlanks_eq (text : List Char) : skipBlanks text = text.dropWhile isGap := rfl

/-- A text that no blank interrupts. -/
def Unbroken (text : List Char) : Prop :=
  ∀ c ∈ text, isGap c = false

/-- A part of a word that ends with the word, and not in a mark. -/
structure IsClosed (text : List Char) : Prop where
  unbroken : Unbroken text
  ends : ∃ front last, text = front ++ [last] ∧ isMark last = false

/-- A text that may follow a field: it begins neither with a blank nor with a mark. -/
structure IsNext (next : List Char) : Prop where
  skipped : skipBlanks next = next
  head : ∀ c, next.head? = some c → isMark c = false

/-- What is left of a word, in front of the next text. -/
def inFront (next : List Char) : List Char → List Char
  | [] => next
  | c :: rest => c :: rest ++ ' ' :: next

theorem inFront_nil (next : List Char) : inFront next [] = next := rfl

theorem Unbroken.of_append (front : List Char) {rest : List Char} (h : Unbroken (front ++ rest)) :
    Unbroken rest :=
  fun c hC => h c (List.mem_append_right front hC)

theorem skipBlanks_of_unbroken {text : List Char} (h : Unbroken text) :
    skipBlanks text = text := by
  cases text with
  | nil => rfl
  | cons c rest => rw [skipBlanks_eq, List.dropWhile_cons_of_neg (by simp [h c])]

namespace IsClosed

variable {text : List Char}

theorem ne_nil (h : IsClosed text) : text ≠ [] := by
  obtain ⟨front, last, rfl, -⟩ := h.ends
  simp

/-- What is left of it is closed too, or empty. -/
theorem of_append (front : List Char) {rest : List Char} (h : IsClosed (front ++ rest)) :
    rest = [] ∨ IsClosed rest := by
  rcases List.eq_nil_or_concat rest with rfl | ⟨middle, last, rfl⟩
  · exact Or.inl rfl
  · right
    refine ⟨Unbroken.of_append front h.unbroken, middle, last, List.concat_eq_append, ?_⟩
    obtain ⟨before, final, hText, hFinal⟩ := h.ends
    rw [List.concat_eq_append, ← List.append_assoc] at hText
    obtain ⟨-, hLast⟩ := List.append_inj' hText rfl
    rwa [List.singleton_inj.mp hLast]

theorem inFront_eq (h : IsClosed text) (next : List Char) :
    inFront next text = text ++ ' ' :: next := by
  cases text with
  | nil => exact absurd rfl h.ne_nil
  | cons c rest => rfl

theorem skipBlanks_inFront (h : IsClosed text) (next : List Char) :
    skipBlanks (inFront next text) = inFront next text := by
  cases text with
  | nil => exact absurd rfl h.ne_nil
  | cons c rest =>
      rw [inFront, skipBlanks_eq, List.cons_append, List.dropWhile_cons_of_neg]
      simp [h.unbroken c]

end IsClosed

/-- A reader that looks at one word only, if the word does not end in a mark: what it takes
does not end in one, and whether and what it reads does not depend on the text behind. -/
structure IsLocal (next : List Char) (read : Reader α) : Prop where
  takes : ∀ {text value rest}, Unbroken text → read text = some (value, rest) →
    ∃ front last, text = front ++ last :: rest ∧ isMark last = false
  reads : ∀ {text}, IsClosed text →
    read (inFront next text) = (read text).map (Prod.map id (inFront next))

/-! ## Runs of characters -/

/-- A run of characters of one kind with blanks around it. -/
def readRun? (isKind : Char → Bool) : Reader (List Char) := fun text =>
  let run := (skipBlanks text).takeWhile isKind
  if run.isEmpty then none else some (run, skipBlanks ((skipBlanks text).dropWhile isKind))

theorem takeWhile_append_space {isKind : Char → Bool} (hSpace : isKind ' ' = false)
    (text next : List Char) :
    (text ++ ' ' :: next).takeWhile isKind = text.takeWhile isKind := by
  induction text with
  | nil => simp [hSpace]
  | cons c rest ih => simp [List.takeWhile_cons, ih]

theorem skipBlanks_append {text next : List Char} (hText : Unbroken text)
    (hNext : skipBlanks next = next) : skipBlanks (text ++ ' ' :: next) = inFront next text := by
  cases text with
  | nil => exact hNext
  | cons c rest =>
      rw [List.cons_append, skipBlanks_eq, List.dropWhile_cons_of_neg (by simp [hText c])]
      rfl

theorem skipBlanks_dropWhile_append {isKind : Char → Bool} (hSpace : isKind ' ' = false)
    {text next : List Char} (hText : Unbroken text) (hNext : skipBlanks next = next) :
    skipBlanks ((text ++ ' ' :: next).dropWhile isKind) =
      inFront next (text.dropWhile isKind) := by
  induction text with
  | nil =>
      rw [List.nil_append, List.dropWhile_cons_of_neg (by simp [hSpace])]
      exact hNext
  | cons c rest ih =>
      rw [List.cons_append]
      by_cases hKind : isKind c = true
      · rw [List.dropWhile_cons_of_pos hKind, List.dropWhile_cons_of_pos hKind]
        exact ih fun d hD => hText d (List.mem_cons_of_mem _ hD)
      · rw [List.dropWhile_cons_of_neg hKind, List.dropWhile_cons_of_neg hKind]
        exact skipBlanks_append hText hNext

theorem readRun?_of_unbroken (isKind : Char → Bool) {text : List Char} (h : Unbroken text) :
    readRun? isKind text =
      if (text.takeWhile isKind).isEmpty then none
      else some (text.takeWhile isKind, text.dropWhile isKind) := by
  have hRest : Unbroken (text.dropWhile isKind) := fun c hC =>
    h c ((List.dropWhile_sublist isKind).subset hC)
  rw [readRun?, skipBlanks_of_unbroken h, skipBlanks_of_unbroken hRest]

theorem isLocal_readRun? {next : List Char} (hNext : IsNext next) {isKind : Char → Bool}
    (hSpace : isKind ' ' = false) (hMark : ∀ c, isKind c = true → isMark c = false) :
    IsLocal next (readRun? isKind) where
  takes {text run rest} hText h := by
    rw [readRun?_of_unbroken isKind hText] at h
    split at h
    · cases h
    · rename_i hSome
      obtain ⟨rfl, rfl⟩ := Prod.mk.inj (Option.some.inj h)
      rcases List.eq_nil_or_concat (text.takeWhile isKind) with hNone | ⟨front, last, hRun⟩
      · exact absurd (List.isEmpty_iff.mpr hNone) hSome
      · have hLast : last ∈ text.takeWhile isKind := by simp [hRun]
        refine ⟨front, last, ?_, hMark last ?_⟩
        · calc text = text.takeWhile isKind ++ text.dropWhile isKind :=
                List.takeWhile_append_dropWhile.symm
            _ = front ++ last :: text.dropWhile isKind := by simp [hRun]
        · exact List.all_eq_true.mp List.all_takeWhile last hLast
  reads {text} hText := by
    rw [readRun?_of_unbroken isKind hText.unbroken, readRun?, hText.skipBlanks_inFront,
      hText.inFront_eq, takeWhile_append_space hSpace,
      skipBlanks_dropWhile_append hSpace hText.unbroken hNext.skipped]
    split
    · rfl
    · rfl

/-! ## Readers made of others -/

section

variable {next : List Char} {read : Reader α} {other : Reader β}

theorem IsLocal.bindValue (h : IsLocal next read) (finish : α → Option β) :
    IsLocal next fun text =>
      (read text).bind fun (value, rest) => (finish value).map fun result => (result, rest) where
  takes {text result rest} hText hRead := by
    obtain ⟨⟨value, left⟩, hValue, hFinish⟩ := Option.bind_eq_some_iff.mp hRead
    obtain ⟨_, -, hResult⟩ := Option.map_eq_some_iff.mp hFinish
    obtain ⟨-, rfl⟩ := Prod.mk.inj hResult
    exact h.takes hText hValue
  reads {text} hText := by
    rw [h.reads hText]
    cases read text with
    | none => rfl
    | some found => cases hFinish : finish found.1 <;> simp [hFinish]

theorem IsLocal.map (h : IsLocal next read) (finish : α → β) :
    IsLocal next fun text => (read text).map fun (value, rest) => (finish value, rest) where
  takes {text result rest} hText hRead := by
    obtain ⟨⟨value, left⟩, hValue, hResult⟩ := Option.map_eq_some_iff.mp hRead
    obtain ⟨-, rfl⟩ := Prod.mk.inj hResult
    exact h.takes hText hValue
  reads {text} hText := by
    rw [h.reads hText]
    cases read text <;> rfl

theorem IsLocal.orElse {second : Reader α} (h : IsLocal next read) (hSecond : IsLocal next second) :
    IsLocal next fun text => read text <|> second text where
  takes {text value rest} hText hRead := by
    cases hFirst : read text with
    | none =>
        rw [hFirst] at hRead
        exact hSecond.takes hText hRead
    | some found =>
        rw [hFirst] at hRead
        exact h.takes hText (hFirst.trans hRead)
  reads {text} hText := by
    rw [h.reads hText, hSecond.reads hText]
    cases read text <;> rfl

/-- A mark is read from what is left of a word as it is from the word, and never ends it. -/
theorem readChar?_inFront {mark : Char} (hMark : isMark mark = true) (hNext : IsNext next)
    {rest : List Char} (hRest : rest = [] ∨ IsClosed rest) :
    (readChar? mark rest = none ∧ readChar? mark (inFront next rest) = none) ∨
      ∃ more, IsClosed more ∧ rest = mark :: more ∧
        readChar? mark (inFront next rest) = some ((), inFront next more) := by
  rcases hRest with rfl | hClosed
  · refine Or.inl ⟨rfl, ?_⟩
    cases hText : next with
    | nil => rfl
    | cons c text =>
        have hFirst := hNext.head c (by rw [hText]; rfl)
        exact if_neg fun hSame => by simp [← hSame, hFirst] at hMark
  · cases rest with
    | nil => exact absurd rfl hClosed.ne_nil
    | cons c more =>
        by_cases hSame : c = mark
        · subst hSame
          -- A word that goes on with a mark goes on behind it.
          rcases IsClosed.of_append [c] hClosed with rfl | hMore
          · obtain ⟨front, last, hText, hLast⟩ := hClosed.ends
            obtain ⟨-, hEnd⟩ := List.append_inj' (show [] ++ [c] = front ++ [last] from hText) rfl
            rw [← List.singleton_inj.mp hEnd, hMark] at hLast
            cases hLast
          · refine Or.inr ⟨more, hMore, rfl, ?_⟩
            rw [hMore.inFront_eq]
            exact if_pos rfl
        · exact Or.inl ⟨if_neg hSame, if_neg hSame⟩

theorem IsLocal.thenMark {mark : Char} (h : IsLocal next read) (hOther : IsLocal next other)
    (hMark : isMark mark = true) (hNext : IsNext next) (finish : α → β → γ) :
    IsLocal next fun text => do
      let (first, text) ← read text
      let ((), text) ← readChar? mark text
      let (second, text) ← other text
      some (finish first second, text) where
  takes {text result rest} hText hRead := by
    obtain ⟨⟨first, left⟩, hFirst, hRead⟩ := Option.bind_eq_some_iff.mp hRead
    obtain ⟨⟨_, more⟩, hChar, hRead⟩ := Option.bind_eq_some_iff.mp hRead
    obtain ⟨⟨second, behind⟩, hSecond, hRead⟩ := Option.bind_eq_some_iff.mp hRead
    obtain ⟨-, rfl⟩ := Prod.mk.inj (Option.some.inj hRead)
    obtain ⟨front, last, rfl, -⟩ := h.takes hText hFirst
    cases left with
    | nil => cases hChar
    | cons c left =>
        simp only [readChar?] at hChar
        split at hChar
        · obtain ⟨-, rfl⟩ := Prod.mk.inj (Option.some.inj hChar)
          have hLeft : Unbroken left := fun d hD => hText d (by simp [hD])
          obtain ⟨middle, final, rfl, hFinal⟩ := hOther.takes hLeft hSecond
          exact ⟨front ++ last :: c :: middle, final, by simp, hFinal⟩
        · cases hChar
  reads {text} hText := by
    rw [h.reads hText]
    cases hFirst : read text with
    | none => rfl
    | some found =>
        obtain ⟨first, left⟩ := found
        obtain ⟨front, last, rfl, -⟩ := h.takes hText.unbroken hFirst
        have hLeft : left = [] ∨ IsClosed left :=
          IsClosed.of_append (front ++ [last]) (by simpa using hText)
        rcases readChar?_inFront hMark hNext hLeft with ⟨hNone, hNoneFront⟩ |
          ⟨more, hMore, rfl, hSomeFront⟩
        · simp [hNone, hNoneFront]
        · have hSome : readChar? mark (mark :: more) = some ((), more) := if_pos rfl
          simp only [Option.map_some, Prod.map, id, Option.bind_eq_bind, Option.bind_some, hSome,
            hSomeFront, hOther.reads hMore]
          cases other more <;> rfl

end

/-! ## The readers of a field -/

section

variable {next : List Char}

theorem isLocal_readNumber? (hNext : IsNext next) : IsLocal next readNumber? := by
  have hRun : IsLocal next (readRun? isDigit) := by
    refine isLocal_readRun? hNext rfl fun c hDigit => ?_
    rw [isMark, Bool.or_eq_false_iff, Bool.or_eq_false_iff]
    refine ⟨⟨?_, ?_⟩, ?_⟩ <;> exact beq_false_of_ne fun hC => by simp [hC, isDigit] at hDigit
  have hRead : readNumber? = fun text => (readRun? isDigit text).bind fun found =>
      (if digitsValue found.1 < bound32 then some (digitsValue found.1) else none).map
        fun value => (value, found.2) := by
    funext text
    unfold readNumber? readRun? spanDigits
    by_cases hNone : ((skipBlanks text).takeWhile isDigit).isEmpty = true
    · simp [hNone]
    · simp only [hNone, Bool.false_eq_true, if_false, Option.bind_some]
      split <;> rfl
  rw [hRead]
  exact hRun.bindValue fun digits =>
    if digitsValue digits < bound32 then some (digitsValue digits) else none

theorem isLocal_readName? (hNext : IsNext next) : IsLocal next readName? := by
  have hRun : IsLocal next (readRun? Char.isAlpha) := by
    refine isLocal_readRun? hNext rfl fun c hAlpha => ?_
    rw [isMark, Bool.or_eq_false_iff, Bool.or_eq_false_iff]
    refine ⟨⟨?_, ?_⟩, ?_⟩ <;> exact beq_false_of_ne fun hC => by simp [hC] at hAlpha
  have hRead : readName? = readRun? Char.isAlpha := by
    funext text
    have hDrop (letters : List Char) :
        letters.drop (letters.takeWhile Char.isAlpha).length = letters.dropWhile Char.isAlpha :=
      calc letters.drop (letters.takeWhile Char.isAlpha).length
          = (letters.takeWhile Char.isAlpha ++ letters.dropWhile Char.isAlpha).drop
              (letters.takeWhile Char.isAlpha).length := by rw [List.takeWhile_append_dropWhile]
        _ = letters.dropWhile Char.isAlpha := List.drop_left
    simp only [readName?, readRun?, hDrop]
  rwa [hRead]

theorem isLocal_readMark? (hNext : IsNext next) {mark : Char} (hMark : isMark mark = false) :
    IsLocal next (readMark? mark) where
  takes {text value rest} hText h := by
    rw [readMark?, skipBlanks_of_unbroken hText] at h
    obtain ⟨⟨_, more⟩, hChar, hRest⟩ := Option.map_eq_some_iff.mp h
    obtain ⟨-, rfl⟩ := Prod.mk.inj hRest
    cases text with
    | nil => cases hChar
    | cons c text =>
        simp only [readChar?] at hChar
        split at hChar
        · rename_i hSame
          obtain ⟨-, rfl⟩ := Prod.mk.inj (Option.some.inj hChar)
          have hMore : Unbroken text := fun d hD => hText d (List.mem_cons_of_mem _ hD)
          refine ⟨[], c, ?_, hSame ▸ hMark⟩
          rw [skipBlanks_of_unbroken hMore, List.nil_append]
        · cases hChar
  reads {text} hText := by
    cases text with
    | nil => exact absurd rfl hText.ne_nil
    | cons c text =>
        have hMore : Unbroken text := fun d hD => hText.unbroken d (List.mem_cons_of_mem _ hD)
        rw [readMark?, readMark?, hText.skipBlanks_inFront, skipBlanks_of_unbroken hText.unbroken,
          inFront, List.cons_append]
        simp only [readChar?]
        split
        · simp [skipBlanks_append hMore hNext.skipped, skipBlanks_of_unbroken hMore]
        · rfl

theorem isLocal_readShape? (hNext : IsNext next) (questionMark : Bool) :
    IsLocal next (readShape? questionMark) := by
  have hNumber := isLocal_readNumber? hNext
  have hDashed {α : Type} {read : Reader α} (h : IsLocal next read) :
      IsLocal next (readDashed? read) :=
    h.thenMark h rfl hNext fun low high => (low, high)
  have hMark (mark : Char) (hMark : isMark mark = false) :=
    (isLocal_readMark? hNext hMark).map fun _ => Shape.all
  have hStar := (hMark '*' rfl).orElse
    (((hDashed hNumber).map fun ends => Shape.range ends.1 ends.2).orElse
      ((hNumber.map Shape.point).orElse
        ((hDashed (isLocal_readName? hNext)).map fun ends => Shape.namedRange ends.1 ends.2)))
  cases questionMark with
  | false => exact hStar
  | true => exact (hMark '?' rfl).orElse hStar

theorem isLocal_readItem? (hNext : IsNext next) (questionMark : Bool) :
    IsLocal next (readItem? questionMark) := by
  have hShape := isLocal_readShape? hNext questionMark
  have hStepped : IsLocal next (readStepped? questionMark) :=
    hShape.thenMark (isLocal_readNumber? hNext) rfl hNext Item.stepped
  exact hStepped.orElse ((hShape.map Item.plain).orElse ((isLocal_readName? hNext).map Item.named))

/-! ## Whole fields -/

/-- Items behind the first one do not end in a mark either. -/
theorem readMoreItems_takes (hNext : IsNext next) (questionMark : Bool) (count : Nat)
    {text : List Char} (hText : Unbroken text) :
    (readMoreItems questionMark count text).2 = text ∨
      ∃ front last, text = front ++ last :: (readMoreItems questionMark count text).2 ∧
        isMark last = false := by
  induction count generalizing text with
  | zero => exact Or.inl rfl
  | succ count ih =>
      cases text with
      | nil => exact Or.inl rfl
      | cons c more =>
          have hMore : Unbroken more := fun d hD => hText d (List.mem_cons_of_mem _ hD)
          by_cases hComma : c = ','
          · have hChar : readChar? ',' (c :: more) = some ((), more) := if_pos hComma
            cases hItem : readItem? questionMark more with
            | none => exact Or.inl (by simp only [readMoreItems, hChar, hItem])
            | some found =>
                obtain ⟨item, rest⟩ := found
                obtain ⟨front, last, rfl, hLast⟩ :=
                  (isLocal_readItem? hNext questionMark).takes hMore hItem
                have hRest : Unbroken rest := fun d hD => hMore d (by simp [hD])
                have hResult : (readMoreItems questionMark (count + 1)
                    (c :: (front ++ last :: rest))).2 =
                    (readMoreItems questionMark count rest).2 := by
                  simp only [readMoreItems, hChar, hItem]
                rw [hResult]
                right
                rcases ih hRest with hAll | ⟨middle, final, hSome, hFinal⟩
                · exact ⟨c :: front, last, by rw [hAll, List.cons_append], hLast⟩
                · refine ⟨c :: (front ++ last :: middle), final, ?_, hFinal⟩
                  rw [List.cons_append, List.append_assoc, List.cons_append, ← hSome]
          · have hChar : readChar? ',' (c :: more) = none := if_neg hComma
            exact Or.inl (by simp only [readMoreItems, hChar])

/-- Items behind the first one are local too, as far as their number is not bounded. -/
theorem readMoreItems_inFront (hNext : IsNext next) (questionMark : Bool) {count bound : Nat}
    {text : List Char} (hText : text = [] ∨ IsClosed text) (hCount : text.length ≤ count)
    (hBound : text.length ≤ bound) :
    readMoreItems questionMark bound (inFront next text) =
      Prod.map id (inFront next) (readMoreItems questionMark count text) := by
  have hComma : isMark ',' = true := rfl
  induction count generalizing bound text with
  | zero =>
      obtain rfl := List.eq_nil_of_length_eq_zero (Nat.le_zero.mp hCount)
      rcases readChar?_inFront hComma hNext hText with ⟨-, hNone⟩ | ⟨_, _, hCons, _⟩
      · rw [inFront] at hNone
        cases bound <;> simp [readMoreItems, inFront, hNone]
      · cases hCons
  | succ count ih =>
      rcases readChar?_inFront hComma hNext hText with ⟨hNone, hNoneFront⟩ |
        ⟨more, hMore, rfl, hSomeFront⟩
      · cases bound <;> simp [readMoreItems, hNone, hNoneFront]
      · have hChar : readChar? ',' (',' :: more) = some ((), more) := rfl
        rw [List.length_cons] at hCount hBound
        obtain ⟨bound, rfl⟩ : ∃ fewer, bound = fewer + 1 := ⟨bound - 1, by omega⟩
        have hItem := (isLocal_readItem? hNext questionMark).reads hMore
        cases hFound : readItem? questionMark more with
        | none =>
            rw [hFound] at hItem
            simp [readMoreItems, hChar, hSomeFront, hItem, hFound]
        | some found =>
            obtain ⟨item, rest⟩ := found
            rw [hFound] at hItem
            obtain ⟨front, last, rfl, -⟩ :=
              (isLocal_readItem? hNext questionMark).takes hMore.unbroken hFound
            have hRest : rest = [] ∨ IsClosed rest :=
              IsClosed.of_append (front ++ [last]) (by simpa using hMore)
            have hLength : rest.length < (front ++ last :: rest).length := by simp; omega
            simp [readMoreItems, hChar, hSomeFront, hItem, hFound,
              ih hRest (show rest.length ≤ count by omega) (show rest.length ≤ bound by omega)]

theorem length_le_inFront (next text : List Char) :
    text.length ≤ (inFront next text).length := by
  cases text <;> simp [inFront]

/-- If nothing but blanks is left of a word, then nothing is. -/
theorem readMoreItems_snd_eq_nil (hNext : IsNext next) {questionMark : Bool} {count : Nat}
    {text : List Char} (hText : Unbroken text)
    (hEnd : skipBlanks (readMoreItems questionMark count text).2 = []) :
    (readMoreItems questionMark count text).2 = [] := by
  have hLeft : Unbroken (readMoreItems questionMark count text).2 := by
    rcases readMoreItems_takes hNext questionMark count hText with hAll | ⟨front, last, hSome, -⟩
    · rwa [hAll]
    · rw [hSome] at hText
      exact Unbroken.of_append [last] (Unbroken.of_append front hText)
  rwa [skipBlanks_of_unbroken hLeft] at hEnd

/-- A word that is a field by itself does not end in a mark. -/
theorem isClosed_of_readItems? (hNext : IsNext next) {questionMark : Bool} {word : List Char}
    {items : List Item} (hWord : Unbroken word)
    (h : readItems? questionMark word = some (items, [])) : IsClosed word := by
  obtain ⟨⟨first, rest⟩, hFirst, h⟩ := Option.bind_eq_some_iff.mp h
  obtain ⟨-, hEnd⟩ := Prod.mk.inj (Option.some.inj h)
  rw [skipBlanks_of_unbroken hWord] at hFirst
  obtain ⟨front, last, rfl, hLast⟩ := (isLocal_readItem? hNext questionMark).takes hWord hFirst
  have hRest : Unbroken rest := Unbroken.of_append (front ++ [last]) (by simpa using hWord)
  refine ⟨hWord, ?_⟩
  rcases readMoreItems_takes hNext questionMark rest.length hRest with hAll |
    ⟨middle, final, hSome, hFinal⟩
  · rw [hAll, skipBlanks_of_unbroken hRest] at hEnd
    exact ⟨front, last, by rw [hEnd], hLast⟩
  · rw [readMoreItems_snd_eq_nil hNext hRest hEnd] at hSome
    exact ⟨front ++ last :: middle, final, by simp [hSome], hFinal⟩

theorem readItems?_append (hNext : IsNext next) {questionMark : Bool} {word : List Char}
    {items : List Item} (hWord : Unbroken word)
    (h : readItems? questionMark word = some (items, [])) :
    readItems? questionMark (word ++ ' ' :: next) = some (items, next) := by
  have hClosed := isClosed_of_readItems? hNext hWord h
  have hLocal := isLocal_readItem? hNext questionMark
  obtain ⟨⟨first, rest⟩, hFirst, h⟩ := Option.bind_eq_some_iff.mp h
  obtain ⟨hItems, hEnd⟩ := Prod.mk.inj (Option.some.inj h)
  rw [skipBlanks_of_unbroken hWord] at hFirst
  obtain ⟨front, last, rfl, -⟩ := hLocal.takes hWord hFirst
  have hRest : rest = [] ∨ IsClosed rest :=
    IsClosed.of_append (front ++ [last]) (by simpa using hClosed)
  have hMore := readMoreItems_inFront hNext questionMark hRest (Nat.le_refl _)
    (length_le_inFront next rest)
  have hItem := hLocal.reads hClosed
  rw [hFirst] at hItem
  rw [← hClosed.inFront_eq, readItems?, hClosed.skipBlanks_inFront, hItem]
  have hBroken : Unbroken rest := Unbroken.of_append (front ++ [last]) (by simpa using hWord)
  simp [hMore, readMoreItems_snd_eq_nil hNext hBroken hEnd, inFront_nil, hNext.skipped, hItems]

/-- A word that is a field by itself is this field in front of further text too. -/
theorem readField?_append (hNext : IsNext next) {range : FieldRange} {word : List Char}
    {values : List Nat} (hWord : Unbroken word) (h : readField? range word = some (values, [])) :
    readField? range (word ++ ' ' :: next) = some (values, next) := by
  obtain ⟨⟨items, rest⟩, hItems, h⟩ := Option.bind_eq_some_iff.mp h
  obtain ⟨found, hFound, h⟩ := Option.bind_eq_some_iff.mp h
  obtain ⟨rfl, rfl⟩ := Prod.mk.inj (Option.some.inj h)
  rw [readField?, readItems?_append hNext hWord hItems]
  simp [hFound]

end

end PipelineUpkeep.Cron

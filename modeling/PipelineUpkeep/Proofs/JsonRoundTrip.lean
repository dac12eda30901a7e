import Mathlib.Data.List.Nodup
import PipelineUpkeep.Proofs.DecimalLaws
import PipelineUpkeep.Proofs.RecordReading
/-!
# JSON reads back what it writes

Every part of a written value is read up to the place where the next part starts: a text
up to its closing quote, since no other quote stands without a backslash; a number up to
the comma or line break behind it; a list or table up to its bracket.  The bound on the
calls of the reader is paid from the characters of each part.
-/

namespace PipelineUpkeep.Data

open Text

/-- Data that records consist of: natural numbers of 64 bits, and tables that do not repeat
a key. -/
inductive Value.IsRecord : Value → Prop where
  | null : IsRecord .null
  | bool (truth : Bool) : IsRecord (.bool truth)
  | nat {n : Nat} (hBound : n < bound64) : IsRecord (.nat n)
  | text (content : String) : IsRecord (.text content)
  | list {items : List Value} (hItems : ∀ item ∈ items, IsRecord item) : IsRecord (.list items)
  | table {entries : List (String × Value)} (hKeys : (entries.map (·.1)).Nodup)
      (hEntries : ∀ entry ∈ entries, IsRecord entry.2) : IsRecord (.table entries)

namespace Json

/-! ## Texts -/

theorem readHexDigits?_escaped {n : Nat} (h : n < 32) (rest : List Char) :
    readHexDigits? 4 ('0' :: '0' :: lowerHexDigit (n / 16) :: lowerHexDigit (n % 16) :: rest) =
      some (n, rest) := by
  have hValue : ∀ n < 32,
      valueInBase? 16 ['0', '0', lowerHexDigit (n / 16), lowerHexDigit (n % 16)] = some n := by
    decide
  simp [readHexDigits?, hValue n h]

/-- A character is written as itself or as an escape sequence. -/
theorem escapeChar_cases (c : Char) :
    (escapeChar c = [c] ∧ c ≠ '"' ∧ c ≠ '\\' ∧ ¬ c.toNat < 0x20) ∨
      ∃ escape, escapeChar c = '\\' :: escape ∧
        ∀ rest, readEscape? (escape ++ rest) = some (some c, rest) := by
  unfold escapeChar
  split
  case h_8 hQuote hBackslash _ _ _ _ _ =>
    split
    next hControl =>
      refine .inr ⟨_, rfl, fun rest => ?_⟩
      have hUnit : c.toNat < 0xD800 ∨ 0xDFFF < c.toNat := by omega
      simp [readEscape?, readHexDigits?_escaped hControl, hUnit]
    next hVisible => exact .inl ⟨rfl, hQuote, hBackslash, hVisible⟩
  all_goals exact .inr ⟨_, rfl, fun _ => rfl⟩

/-- A text is read up to its closing quote, with one call a character. -/
theorem readText?_escaped {content : List Char} {fuel : Nat} (hFuel : content.length < fuel)
    (rest : List Char) :
    readText? fuel (content.flatMap escapeChar ++ '"' :: rest) = some (some content, rest) := by
  induction content generalizing fuel with
  | nil =>
      obtain ⟨fuel, rfl⟩ := Nat.exists_eq_succ_of_ne_zero (by omega : fuel ≠ 0)
      rfl
  | cons c content ih =>
      obtain ⟨fuel, rfl⟩ := Nat.exists_eq_succ_of_ne_zero (by omega : fuel ≠ 0)
      have hEnough : content.length < fuel := by
        simp only [List.length_cons] at hFuel
        omega
      have hMore := ih hEnough
      rw [List.flatMap_cons, List.append_assoc]
      rcases escapeChar_cases c with
        ⟨hSelf, hQuote, hBackslash, hVisible⟩ | ⟨escape, hEscape, hRead⟩
      · rw [hSelf, List.singleton_append]
        unfold readText?
        split
        next hText => cases hText
        next hText => exact absurd (List.cons.inj hText).1 hQuote
        next hText => exact absurd (List.cons.inj hText).1 hBackslash
        next hText =>
          obtain ⟨rfl, rfl⟩ := List.cons.inj hText
          rw [if_neg hVisible]
          exact bind_eq_of_eq_some hMore _
      · rw [hEscape, List.cons_append]
        refine (bind_eq_of_eq_some (hRead _) _).trans ?_
        exact bind_eq_of_eq_some hMore _

theorem length_le_length_flatMap_escapeChar (content : List Char) :
    content.length ≤ (content.flatMap escapeChar).length := by
  induction content with
  | nil => exact Nat.le_refl _
  | cons c content ih =>
      have hSome : 0 < (escapeChar c).length := by
        rcases escapeChar_cases c with ⟨hSelf, -⟩ | ⟨escape, hEscape, -⟩
        · simp [hSelf]
        · simp [hEscape]
      simp only [List.length_cons, List.flatMap_cons, List.length_append]
      omega

theorem readText?_quote (text : String) {fuel : Nat} (hFuel : (quote text).length ≤ fuel + 1)
    (rest : List Char) :
    ∃ body, quote text ++ rest = '"' :: body ∧
      readText? fuel body = some (some text.toList, rest) := by
  refine ⟨text.toList.flatMap escapeChar ++ '"' :: rest, by simp [quote], ?_⟩
  refine readText?_escaped ?_ rest
  have hLength := length_le_length_flatMap_escapeChar text.toList
  simp only [quote, List.length_append, List.length_cons, List.length_nil] at hFuel
  omega

/-! ## Numbers -/

/-- What follows ends a number: no digit, point or exponent. -/
def EndsNumber (rest : List Char) : Prop :=
  ∀ c, rest.head? = some c → isDigit c = false ∧ c ≠ '.' ∧ c ≠ 'e' ∧ c ≠ 'E'

/-- A shortest numeral starts with zero only if it is zero. -/
theorem eq_nil_of_natDigits_eq_zero_cons {n : Nat} {rest : List Char}
    (h : natDigits n = '0' :: rest) : rest = [] := by
  induction n using Nat.strongRecOn generalizing rest with
  | ind n ih =>
      rw [natDigits, Nat.toDigits_eq_if (by decide)] at h
      split at h
      next => exact (List.cons.inj h).2.symm
      next hTen =>
        obtain ⟨first, more, hDigits⟩ := List.exists_cons_of_ne_nil (natDigits_ne_nil (n / 10))
        rw [← natDigits, hDigits, List.cons_append] at h
        obtain ⟨rfl, -⟩ := List.cons.inj h
        -- All but the last digit would be zero.
        have hMore : more = [] := ih (n / 10) (by omega) hDigits
        have hZero : n / 10 = 0 := by
          rw [← digitsValue_natDigits (n / 10), hDigits, hMore]
          rfl
        omega

theorem readFractionAndExponent?_end {rest : List Char} (h : EndsNumber rest) :
    readFractionAndExponent? rest = some (false, rest) := by
  cases rest with
  | nil => rfl
  | cons c more =>
      obtain ⟨-, hPoint, hLower, hUpper⟩ := h c rfl
      unfold readFractionAndExponent?
      simp [hPoint, hLower, hUpper]

theorem readNumber?_natDigits {n : Nat} (hBound : n < bound64) {rest : List Char}
    (hRest : EndsNumber rest) :
    readNumber? (natDigits n ++ rest) = some (.nat n, rest) := by
  have hSpan : spanDigits (natDigits n ++ rest) = (natDigits n, rest) :=
    spanDigits_digits (fun _ => isDigit_of_mem_natDigits) fun c hc => (hRest c hc).1
  have hFirst : ∀ other, natDigits n ++ rest ≠ '-' :: other := by
    intro other hOther
    obtain ⟨first, more, hDigits⟩ := List.exists_cons_of_ne_nil (natDigits_ne_nil n)
    rw [hDigits] at hOther
    obtain rfl : first = '-' := (List.cons.inj hOther).1
    exact absurd (isDigit_of_mem_natDigits (hDigits ▸ List.mem_cons_self)) (by decide)
  unfold readNumber?
  split
  next hSign =>
    split at hSign
    next other hMinus => exact absurd hMinus (hFirst other)
    next =>
      obtain ⟨rfl, rfl⟩ := Prod.mk.inj hSign
      rw [hSpan]
      dsimp only
      split
      next hNone => exact absurd hNone (natDigits_ne_nil n)
      next hZero => exact absurd (eq_nil_of_natDigits_eq_zero_cons hZero) nofun
      next =>
        refine (bind_eq_of_eq_some (readFractionAndExponent?_end hRest) _).trans ?_
        simp [hBound, Value.nat]

/-! ## Values -/

theorem skipBlanks_lineBreak (level : Nat) (text : List Char) :
    skipBlanks (lineBreak level ++ text) = skipBlanks text := by
  rw [skipBlanks, List.dropWhile_append_of_pos]
  · rfl
  · intro c hc
    rcases List.mem_cons.1 hc with rfl | hSpace
    · rfl
    · rw [List.eq_of_mem_replicate hSpace]
      rfl

theorem skipBlanks_of_not_blank {c : Char} (h : ¬ (c = ' ' ∨ c = '\n' ∨ c = '\t' ∨ c = '\r'))
    (rest : List Char) : skipBlanks (c :: rest) = c :: rest := by
  have hBlank : (c == ' ' || c == '\n' || c == '\t' || c == '\r') = false := by
    simpa [and_assoc] using h
  simp [skipBlanks, hBlank]

theorem readValue?_skipBlanks {text other : List Char} (h : skipBlanks text = skipBlanks other)
    (fuel : Nat) : readValue? fuel text = readValue? fuel other := by
  cases fuel with
  | zero => rfl
  | succ fuel => rw [readValue?, readValue?, h]

theorem readValue?_natDigits {n : Nat} (hBound : n < bound64) {rest : List Char}
    (hRest : EndsNumber rest) (fuel : Nat) :
    readValue? (fuel + 1) (natDigits n ++ rest) = some (.nat n, rest) := by
  obtain ⟨first, more, hDigits⟩ := List.exists_cons_of_ne_nil (natDigits_ne_nil n)
  have hFirst : isDigit first = true := isDigit_of_mem_natDigits (hDigits ▸ List.mem_cons_self)
  have hRead := readNumber?_natDigits hBound hRest
  rw [hDigits, List.cons_append] at hRead ⊢
  rw [readValue?, skipBlanks_of_not_blank (by rintro (rfl | rfl | rfl | rfl) <;> cases hFirst)]
  split
  case h_7 => exact hRead
  all_goals
    rename_i hText
    obtain ⟨rfl, -⟩ := List.cons.inj hText
    exact absurd hFirst (by decide)

/-- The value is read back wherever it stands, and nothing after it is touched. -/
def ReadsInPlace (value : Value) : Prop :=
  ∀ fuel level rest, 2 * (prettyChars level value).length ≤ fuel → EndsNumber rest →
    readValue? fuel (prettyChars level value ++ rest) = some (value, rest)

theorem endsNumber_lineBreak (level : Nat) (rest : List Char) :
    EndsNumber (lineBreak level ++ rest) := by
  rintro c ⟨⟩
  decide

/-- What follows the first of several pieces: a comma and the others, if there are any. -/
def afterPiece (pieces : List (List Char)) (closing : List Char) : List Char :=
  if pieces = [] then closing else ',' :: ([','].intercalate pieces ++ closing)

theorem intercalate_cons_append (piece : List Char) (pieces : List (List Char))
    (closing : List Char) :
    [','].intercalate (piece :: pieces) ++ closing = piece ++ afterPiece pieces closing := by
  cases pieces with
  | nil => simp [afterPiece]
  | cons next more => simp [List.intercalate_cons_cons, afterPiece]

theorem length_intercalate_cons (piece : List Char) (pieces : List (List Char)) :
    ([','].intercalate (piece :: pieces)).length =
      piece.length + (afterPiece pieces []).length := by
  simpa using congrArg List.length (intercalate_cons_append piece pieces [])

theorem endsNumber_afterPiece {closing : List Char} (h : EndsNumber closing)
    (pieces : List (List Char)) : EndsNumber (afterPiece pieces closing) := by
  unfold afterPiece
  split
  · exact h
  · rintro c ⟨⟩
    decide

/-- The items of a list are read up to its closing bracket, with one call more than the
items need. -/
theorem readItems?_pretty {items : List Value} (hItems : ∀ item ∈ items, ReadsInPlace item)
    (hSome : items ≠ []) {fuel level : Nat}
    (hFuel : 2 * ([','].intercalate (prettyItems level items)).length < fuel) (closing : Nat)
    (rest : List Char) :
    readItems? fuel
        ([','].intercalate (prettyItems level items) ++ (lineBreak closing ++ ']' :: rest)) =
      some (items, rest) := by
  induction items generalizing fuel with
  | nil => exact absurd rfl hSome
  | cons item items ih =>
      obtain ⟨fuel, rfl⟩ := Nat.exists_eq_succ_of_ne_zero (by omega : fuel ≠ 0)
      have hItem : ReadsInPlace item := hItems item List.mem_cons_self
      rw [prettyItems, length_intercalate_cons, List.length_append] at hFuel
      rw [prettyItems, intercalate_cons_append, List.append_assoc]
      have hBlanks (after : List Char) : readValue? fuel (lineBreak level ++ after) =
          readValue? fuel after := readValue?_skipBlanks (skipBlanks_lineBreak level after) fuel
      refine (bind_eq_of_eq_some ((hBlanks _).trans (hItem _ _ _ (by omega)
        (endsNumber_afterPiece (endsNumber_lineBreak _ _) _))) _).trans ?_
      cases items with
      | nil =>
          simp only [afterPiece, prettyItems, if_true, skipBlanks_lineBreak]
          rfl
      | cons next more =>
          refine bind_eq_of_eq_some
            (ih (fun other hOther => hItems other (List.mem_cons_of_mem _ hOther)) nofun ?_) _
          simp only [afterPiece, prettyItems, List.cons_ne_nil, if_false, List.length_cons,
            List.append_nil] at hFuel ⊢
          omega

/-- The entries of a table are read up to its closing brace. -/
theorem readEntries?_pretty {entries : List (String × Value)}
    (hEntries : ∀ entry ∈ entries, ReadsInPlace entry.2) (hSome : entries ≠ []) {fuel level : Nat}
    (hFuel : 2 * ([','].intercalate (prettyEntries level entries)).length < fuel) (closing : Nat)
    (rest : List Char) :
    readEntries? fuel
        ([','].intercalate (prettyEntries level entries) ++ (lineBreak closing ++ '\x7d' :: rest)) =
      some (entries, rest) := by
  induction entries generalizing fuel with
  | nil => exact absurd rfl hSome
  | cons entry entries ih =>
      obtain ⟨key, value⟩ := entry
      obtain ⟨fuel, rfl⟩ := Nat.exists_eq_succ_of_ne_zero (by omega : fuel ≠ 0)
      have hValue : ReadsInPlace value := hEntries _ List.mem_cons_self
      have hRest := endsNumber_afterPiece (endsNumber_lineBreak closing ('\x7d' :: rest))
        (prettyEntries level entries)
      simp only [prettyEntries, length_intercalate_cons, List.length_append, List.length_cons]
        at hFuel
      rw [prettyEntries, intercalate_cons_append, List.append_assoc, List.append_assoc,
        List.cons_append, List.cons_append]
      have hKeyFuel : (quote key).length ≤ fuel + 1 := by omega
      obtain ⟨body, hQuote, hKey⟩ := readText?_quote key hKeyFuel
        (':' :: ' ' :: (prettyChars level value ++
          afterPiece (prettyEntries level entries) (lineBreak closing ++ '\x7d' :: rest)))
      rw [hQuote, readEntries?, skipBlanks_lineBreak, skipBlanks_of_not_blank (by decide)]
      refine (bind_eq_of_eq_some hKey _).trans ?_
      refine (bind_eq_of_eq_some rfl _).trans ?_
      have hSpace (text : List Char) : readValue? fuel (' ' :: text) = readValue? fuel text :=
        @readValue?_skipBlanks (' ' :: text) text rfl fuel
      refine (bind_eq_of_eq_some
        ((hSpace _).trans (hValue fuel level _ (by omega) hRest)) _).trans ?_
      cases entries with
      | nil =>
          simp only [afterPiece, prettyEntries, if_true, skipBlanks_lineBreak,
            String.ofList_toList]
          rfl
      | cons next more =>
          simp only [String.ofList_toList]
          refine bind_eq_of_eq_some
            (ih (fun other hOther => hEntries other (List.mem_cons_of_mem _ hOther)) nofun ?_) _
          simp only [afterPiece, prettyEntries, List.cons_ne_nil, if_false, List.length_cons,
            List.append_nil] at hFuel ⊢
          omega

/-- No written value starts with a blank or a closing bracket. -/
theorem prettyChars_head {value : Value} (h : value.IsRecord) (level : Nat) :
    ∃ first more, prettyChars level value = first :: more ∧ first ≠ ']' ∧
      ¬ (first = ' ' ∨ first = '\n' ∨ first = '\t' ∨ first = '\r') := by
  cases h with
  | null => exact ⟨_, _, rfl, by decide, by decide⟩
  | bool truth => cases truth <;> exact ⟨_, _, rfl, by decide, by decide⟩
  | nat hBound =>
      rename_i n
      obtain ⟨first, more, hDigits⟩ := List.exists_cons_of_ne_nil (natDigits_ne_nil n)
      have hFirst : isDigit first = true :=
        isDigit_of_mem_natDigits (hDigits ▸ List.mem_cons_self)
      refine ⟨first, more, hDigits, ?_, ?_⟩
      · rintro rfl
        cases hFirst
      · rintro (rfl | rfl | rfl | rfl) <;> cases hFirst
  | text content => exact ⟨_, _, rfl, by decide, by decide⟩
  | list hItems => rename_i items; cases items <;> exact ⟨_, _, rfl, by decide, by decide⟩
  | table hKeys hEntries =>
      rename_i entries
      cases entries <;> exact ⟨_, _, rfl, by decide, by decide⟩

theorem ReadsInPlace.of_succ {value : Value} (h : value.IsRecord)
    (hRead : ∀ fuel level rest, 2 * (prettyChars level value).length ≤ fuel + 1 →
      EndsNumber rest →
        readValue? (fuel + 1) (prettyChars level value ++ rest) = some (value, rest)) :
    ReadsInPlace value := by
  rintro fuel level rest hFuel hRest
  obtain ⟨first, more, hHead, -⟩ := prettyChars_head h level
  have hPositive : fuel ≠ 0 := by
    simp only [hHead, List.length_cons] at hFuel
    omega
  obtain ⟨fuel, rfl⟩ := Nat.exists_eq_succ_of_ne_zero hPositive
  exact hRead fuel level rest hFuel hRest

theorem readItems?_skipBlanks {text other : List Char} (h : skipBlanks text = skipBlanks other)
    (fuel : Nat) : readItems? fuel text = readItems? fuel other := by
  cases fuel with
  | zero => rfl
  | succ fuel => rw [readItems?, readItems?, readValue?_skipBlanks h]

theorem readEntries?_skipBlanks {text other : List Char} (h : skipBlanks text = skipBlanks other)
    (fuel : Nat) : readEntries? fuel text = readEntries? fuel other := by
  cases fuel with
  | zero => rfl
  | succ fuel => rw [readEntries?, readEntries?, h]

/-- A list that is not closed at once has items. -/
theorem readValue?_bracket {text : List Char} {first : Char}
    (hText : ∃ more, skipBlanks text = first :: more) (hItem : first ≠ ']')
    (hBlank : ¬ (first = ' ' ∨ first = '\n' ∨ first = '\t' ∨ first = '\r')) {fuel : Nat}
    {items : List Value} {rest : List Char} (hRead : readItems? fuel text = some (items, rest)) :
    readValue? (fuel + 1) ('[' :: text) = some (.list items, rest) := by
  obtain ⟨more, hText⟩ := hText
  have hSame : skipBlanks text = skipBlanks (first :: more) := by
    rw [hText, skipBlanks_of_not_blank hBlank]
  rw [readItems?_skipBlanks hSame] at hRead
  rw [readValue?, skipBlanks_of_not_blank (by decide)]
  simp only [hText]
  split
  next hClosed => exact absurd (List.cons.inj hClosed).1 hItem
  next => exact bind_eq_of_eq_some hRead _

/-- A table that is not closed at once has entries. -/
theorem readValue?_brace {text : List Char} (hText : ∃ more, skipBlanks text = '"' :: more)
    {fuel : Nat} {entries : List (String × Value)} {rest : List Char}
    (hRead : readEntries? fuel text = some (entries, rest)) :
    readValue? (fuel + 1) ('\x7b' :: text) = some (.table entries, rest) := by
  obtain ⟨more, hText⟩ := hText
  have hSame : skipBlanks text = skipBlanks ('"' :: more) := by
    rw [hText, skipBlanks_of_not_blank (by decide)]
  rw [readEntries?_skipBlanks hSame] at hRead
  rw [readValue?, skipBlanks_of_not_blank (by decide)]
  simp only [hText]
  exact bind_eq_of_eq_some hRead _

theorem readsInPlace_text (content : String) : ReadsInPlace (.text content) := by
  refine .of_succ (.text content) fun fuel level rest hFuel _ => ?_
  change 2 * (quote content).length ≤ fuel + 1 at hFuel
  have hEnough : (quote content).length ≤ fuel + 1 := by omega
  obtain ⟨body, hQuote, hRead⟩ := readText?_quote content hEnough rest
  change readValue? (fuel + 1) (quote content ++ rest) = _
  rw [hQuote, readValue?, skipBlanks_of_not_blank (by decide)]
  refine (bind_eq_of_eq_some hRead _).trans ?_
  simp only [String.ofList_toList]

theorem readsInPlace_list {items : List Value} (hItems : ∀ item ∈ items, item.IsRecord)
    (hRead : ∀ item ∈ items, ReadsInPlace item) : ReadsInPlace (.list items) := by
  refine .of_succ (.list hItems) fun fuel level rest hFuel _ => ?_
  cases items with
  | nil => rfl
  | cons item items =>
      obtain ⟨first, more, hHead, hClosing, hBlank⟩ :=
        prettyChars_head (hItems item List.mem_cons_self) (level + 1)
      have hPretty : prettyChars level (.list (item :: items)) =
          '[' :: [','].intercalate (prettyItems (level + 1) (item :: items)) ++ lineBreak level ++
            [']'] := rfl
      simp only [hPretty, List.length_append, List.length_cons, List.length_nil] at hFuel
      rw [hPretty, List.append_assoc, List.append_assoc, List.cons_append, List.singleton_append]
      refine readValue?_bracket ?_ hClosing hBlank
        (readItems?_pretty hRead nofun (by omega) level rest)
      refine ⟨more ++ afterPiece (prettyItems (level + 1) items)
        (lineBreak level ++ ']' :: rest), ?_⟩
      rw [prettyItems, intercalate_cons_append, List.append_assoc, skipBlanks_lineBreak, hHead,
        List.cons_append, skipBlanks_of_not_blank hBlank]

theorem readsInPlace_table {entries : List (String × Value)}
    (h : (Value.table entries).IsRecord) (hRead : ∀ entry ∈ entries, ReadsInPlace entry.2) :
    ReadsInPlace (.table entries) := by
  refine .of_succ h fun fuel level rest hFuel _ => ?_
  cases entries with
  | nil => rfl
  | cons entry entries =>
      have hPretty : prettyChars level (.table (entry :: entries)) =
          '\x7b' :: [','].intercalate (prettyEntries (level + 1) (entry :: entries)) ++
            lineBreak level ++ ['\x7d'] := rfl
      simp only [hPretty, List.length_append, List.length_cons, List.length_nil] at hFuel
      rw [hPretty, List.append_assoc, List.append_assoc, List.cons_append, List.singleton_append]
      refine readValue?_brace ?_ (readEntries?_pretty hRead nofun (by omega) level rest)
      obtain ⟨body, hQuote⟩ : ∃ body, quote entry.1 = '"' :: body := ⟨_, rfl⟩
      rw [prettyEntries, intercalate_cons_append, List.append_assoc, List.append_assoc,
        skipBlanks_lineBreak, hQuote, List.cons_append, skipBlanks_of_not_blank (by decide)]
      exact ⟨_, rfl⟩

theorem readsInPlace {value : Value} (h : value.IsRecord) : ReadsInPlace value := by
  induction h with
  | null => exact .of_succ .null fun _ _ _ _ _ => rfl
  | bool truth => exact .of_succ (.bool truth) fun _ _ _ _ _ => by cases truth <;> rfl
  | nat hBound =>
      exact .of_succ (.nat hBound) fun fuel _ _ _ hRest => readValue?_natDigits hBound hRest fuel
  | text content => exact readsInPlace_text content
  | list hItems ih => exact readsInPlace_list hItems ih
  | table hKeys hEntries ih => exact readsInPlace_table (.table hKeys hEntries) ih

/-- A written value is read back unchanged. -/
theorem read?_pretty {value : Value} (h : value.IsRecord) : read? (pretty value) = some value := by
  have hEnd : EndsNumber [] := by
    rintro c ⟨⟩
  have hRead := readsInPlace h (2 * (prettyChars 0 value).length + 2) 0 [] (by omega) hEnd
  rw [List.append_nil] at hRead
  simp [read?, pretty, hRead, skipBlanks]

end Json

/-! ## The law of the codec -/

theorem Value.IsRecord.readAs_self {value : Value} (h : value.IsRecord) : value.ReadAs value := by
  induction h with
  | null => exact .null
  | bool truth => exact .bool truth
  | nat hBound => exact .int _
  | text content => exact .text content
  | list hItems ih =>
      exact .list (List.forall₂_same.2 ih)
  | table hKeys hEntries ih =>
      rename_i entries
      refine .table (fun entry _ => ?_) (fun entry hEntry hNone => ?_)
        fun entry hEntry other hOther => ?_
      · have hCount := List.nodup_iff_count_le_one.1 hKeys entry.1
        rwa [List.count, List.countP_map, List.countP_eq_length_filter] at hCount
      · have hMem : entry ∈ entries.filter (·.1 == entry.1) := List.mem_filter.2 ⟨hEntry, by simp⟩
        rw [hNone] at hMem
        exact absurd hMem List.not_mem_nil
      · have hSame : entry = (entry.1, other) :=
          List.inj_on_of_nodup_map hKeys hEntry hOther rfl
        rw [(congrArg Prod.snd hSame : entry.2 = other)]
        exact ih _ hOther

theorem Codec.standard_readsBack_json {value : Value} (h : value.IsRecord) :
    Codec.standard.ReadsBack .json value where
  refuses_iff := ⟨nofun, nofun⟩
  reads := by
    rintro text ⟨⟩
    exact ⟨value, Json.read?_pretty h, h.readAs_self⟩

end PipelineUpkeep.Data

import Mathlib.Data.List.Forall2
import PipelineUpkeep.Data.Codec
/-!
# Reading back what was written

The formats keep a written value in different shapes: YAML leaves a scalar without quotes
to its reader, TOML leaves out entries that are null, and entries may change places.
`ReadAs` says which values stand for a written one in any of them.  Every decoder that
reads a written value reads each of its shapes to the same result, so a record is read
back in every format once its fields are.
-/

namespace PipelineUpkeep.Data

/-- The second value is a shape in which the first one may stand in a file. -/
inductive Value.ReadAs : Value → Value → Prop where
  | null : ReadAs .null .null
  | plainNull {text : String} (hText : Decode.isPlainNull text = true) :
      ReadAs .null (.plain text)
  | bool (truth : Bool) : ReadAs (.bool truth) (.bool truth)
  | plainBool {truth : Bool} {text : String} (hText : Decode.plainBool? text = some truth) :
      ReadAs (.bool truth) (.plain text)
  | int (n : Int) : ReadAs (.int n) (.int n)
  | plainNat {n : Nat} {text : String} (hText : Decode.plainNat? text.toList = some n) :
      ReadAs (.nat n) (.plain text)
  | text (content : String) : ReadAs (.text content) (.text content)
  | plainText {content : String} (hText : Decode.isPlainNull content = false) :
      ReadAs (.text content) (.plain content)
  | list {items others : List Value} (hItems : List.Forall₂ ReadAs items others) :
      ReadAs (.list items) (.list others)
  /-- A written key is not repeated, and only null may be left out. -/
  | table {entries others : List (String × Value)}
      (hOnce : ∀ entry ∈ entries, (others.filter (·.1 == entry.1)).length ≤ 1)
      (hLeftOut : ∀ entry ∈ entries, others.filter (·.1 == entry.1) = [] → entry.2 = .null)
      (hGiven : ∀ entry ∈ entries, ∀ other, (entry.1, other) ∈ others → ReadAs entry.2 other) :
      ReadAs (.table entries) (.table others)

/-- The integer stands somewhere in the value. -/
inductive Value.Holds (n : Int) : Value → Prop where
  | int : Holds n (.int n)
  | item {items : List Value} {value : Value} (hItem : value ∈ items) (hHolds : Holds n value) :
      Holds n (.list items)
  | entry {entries : List (String × Value)} {name : String} {value : Value}
      (hEntry : (name, value) ∈ entries) (hHolds : Holds n value) : Holds n (.table entries)

/-- The format reads back what it writes of a value, and only TOML refuses to write it, for
an integer that does not fit into 64 bits with a sign. -/
structure Codec.ReadsBack (codec : Codec) (format : Format) (value : Value) : Prop where
  refuses_iff : codec.write? format value = none ↔
    format = .toml ∧ ∃ n, (Text.bound63 : Int) ≤ n ∧ value.Holds n
  reads : ∀ text, codec.write? format value = some text →
    ∃ other, codec.read? format text = some other ∧ value.ReadAs other

/-- The decoder reads every shape of the written value to the same result. -/
def Decoder.Reads {α : Type} (decode : Decoder α) (written : Value) (result : α) : Prop :=
  ∀ format other, written.ReadAs other → decode format other = some result

namespace Decode

/-! ## Single values -/

theorem isPlainNull_of_plainBool? {text : String} {truth : Bool}
    (h : plainBool? text = some truth) : isPlainNull text = false := by
  unfold plainBool? at h
  split at h
  next hTrue =>
    simp only [List.contains_iff_mem, List.mem_cons, List.not_mem_nil, or_false] at hTrue
    rcases hTrue with rfl | rfl | rfl <;> decide
  next =>
    split at h
    next hFalse =>
      simp only [List.contains_iff_mem, List.mem_cons, List.not_mem_nil, or_false] at hFalse
      rcases hFalse with rfl | rfl | rfl <;> decide
    next => cases h

theorem isPlainNull_of_plainNat? {text : String} {n : Nat}
    (h : plainNat? text.toList = some n) : isPlainNull text = false := by
  rw [← Bool.not_eq_true]
  intro hNull
  simp only [isPlainNull, List.contains_iff_mem, List.mem_cons, List.not_mem_nil, or_false]
    at hNull
  have hNone : plainNat? text.toList = none := by
    rcases hNull with rfl | rfl | rfl | rfl | rfl <;> decide
  rw [hNone] at h
  cases h

/-- Only null has a shape that stands for nothing. -/
theorem isPlainNull_of_readAs {written : Value} {text : String} (hWritten : written ≠ .null)
    (h : written.ReadAs (.plain text)) : isPlainNull text = false := by
  cases h with
  | plainNull => exact absurd rfl hWritten
  | plainBool hText => exact isPlainNull_of_plainBool? hText
  | plainNat hText => exact isPlainNull_of_plainNat? hText
  | plainText hText => exact hText

theorem natBelow_reads {bound n : Nat} (h : n < bound) : (natBelow bound).Reads (.nat n) n := by
  rintro format other hOther
  cases hOther with
  | int => simp [natBelow, h]
  | plainNat hText => simp [natBelow, hText, h]

theorem bool_reads (truth : Bool) : bool.Reads (.bool truth) truth := by
  rintro format other hOther
  cases hOther with
  | bool => rfl
  | plainBool hText => exact hText

theorem string_reads (content : String) : string.Reads (.text content) content := by
  rintro format other hOther
  cases hOther <;> rfl

theorem choice_reads {α : Type} {ofName? : String → Option α} {name : String} {result : α}
    (h : ofName? name = some result) : (choice ofName?).Reads (.text name) result := by
  rintro format other hOther
  cases hOther <;> exact h

theorem parsed_reads {α : Type} {read? : String → Option α} {text : String} {result : α}
    (h : read? text = some result) : (parsed read?).Reads (.text text) result := by
  rintro format other hOther
  rw [parsed, string_reads text format other hOther]
  exact h

/-! ## Optional values and lists -/

theorem option_reads {α : Type} {decode : Decoder α} {encode : α → Value} {value : Option α}
    (hDecode : ∀ content, value = some content → decode.Reads (encode content) content)
    (hNull : ∀ content, encode content ≠ .null) :
    (option decode).Reads (.ofOption encode value) value := by
  rintro format other hOther
  cases value with
  | none =>
      cases hOther with
      | null => rfl
      | plainNull hText => simp [option, hText]
  | some content =>
      have hContent : decode format other = some content := hDecode content rfl format other hOther
      change (encode content).ReadAs other at hOther
      cases other with
      | null =>
          generalize hWritten : encode content = written at hOther
          cases hOther
          exact absurd hWritten (hNull content)
      | plain text =>
          simp [option, isPlainNull_of_readAs (hNull content) hOther, hContent]
      | _ => simp [option, hContent]

theorem list_reads {α : Type} {decode : Decoder α} {encode : α → Value} {items : List α}
    (h : ∀ item ∈ items, decode.Reads (encode item) item) :
    (list decode).Reads (.ofList encode items) items := by
  rintro format other hOther
  cases hOther with
  | list hItems =>
      rename_i others
      simp only [list]
      induction items generalizing others with
      | nil => cases hItems; rfl
      | cons item items ih =>
          cases hItems with
          | cons hItem hItems =>
              rw [List.mapM_cons, h item List.mem_cons_self format _ hItem,
                ih (fun other hOther => h other (List.mem_cons_of_mem _ hOther)) hItems]
              rfl

/-! ## Fields -/

/-- What a record gives for a field that was written: only null may be left out. -/
def GivenAs (written : Value) : Option Value → Prop
  | none => written = .null
  | some other => written.ReadAs other

theorem mapM_given {find? : String → Option (Option Value)} {entries : List (String × Value)}
    (h : ∀ entry ∈ entries, ∃ field, find? entry.1 = some field ∧ GivenAs entry.2 field) :
    ∃ given, (entries.map (·.1)).mapM find? = some given ∧
      List.Forall₂ (fun entry field => GivenAs entry.2 field) entries given := by
  induction entries with
  | nil => exact ⟨[], rfl, .nil⟩
  | cons entry rest ih =>
      obtain ⟨field, hField, hEntry⟩ := h entry List.mem_cons_self
      obtain ⟨given, hRest, hFields⟩ :=
        ih fun other hOther => h other (List.mem_cons_of_mem _ hOther)
      refine ⟨field :: given, ?_, .cons hEntry hFields⟩
      rw [List.map_cons, List.mapM_cons, hField, hRest]
      rfl

/-- A written record gives each of its fields. -/
theorem fields_reads {entries : List (String × Value)} {other : Value}
    (h : (Value.table entries).ReadAs other) (format : Format) :
    ∃ given, fields (entries.map (·.1)) format other = some given ∧
      List.Forall₂ (fun entry field => GivenAs entry.2 field) entries given := by
  cases h with
  | table hOnce hLeftOut hGiven =>
      rename_i others
      refine mapM_given fun entry hEntry => ?_
      have hLength := hOnce entry hEntry
      rcases hFound : others.filter (·.1 == entry.1) with _ | ⟨⟨name, value⟩, _ | ⟨next, more⟩⟩
      · exact ⟨none, by simp only [hFound], hLeftOut entry hEntry hFound⟩
      · have hMem : (name, value) ∈ others.filter (·.1 == entry.1) := by simp [hFound]
        obtain ⟨hOther, hName⟩ := List.mem_filter.1 hMem
        obtain rfl : name = entry.1 := by simpa using hName
        exact ⟨some value, by simp only [hFound], hGiven entry hEntry value hOther⟩
      · simp [hFound] at hLength

variable {α β : Type} {decode : Decoder α} {written : Value} {result default : α}
  {field : Option Value} {format : Format}

theorem required_bind (h : decode.Reads written result) (hGiven : GivenAs written field)
    (hWritten : written ≠ .null) (next : α → Option β) :
    (required decode format field >>= next) = next result := by
  cases field with
  | none => exact absurd hGiven hWritten
  | some other =>
      change (decode format other >>= next) = next result
      rw [h format other hGiven]
      rfl

/-- A field that is null may be left out where its default stands for null. -/
theorem optional_bind (h : decode.Reads written result) (hGiven : GivenAs written field)
    (hDefault : written = .null → default = result) (next : α → Option β) :
    (optional default decode format field >>= next) = next result := by
  cases field with
  | none =>
      rw [← hDefault hGiven]
      rfl
  | some other =>
      change (decode format other >>= next) = next result
      rw [h format other hGiven]
      rfl

end Decode

end PipelineUpkeep.Data

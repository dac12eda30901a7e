import Mathlib.Tactic.IntervalCases
import PipelineUpkeep.Remote.Heads
/-!
# Path segments can be read back

A percent sign is always escaped within a segment, so every percent sign of a written
segment begins a byte: the segment is read back as the UTF-8 form of the text, and texts
that differ are written differently.  Two texts are no segments at all, one and two dots,
and tabs and line breaks are lost; apart from these, branches with different names have
different addresses.
-/

namespace PipelineUpkeep

open Text

/-! ## Bytes -/

theorem hexValue?_upperHexDigit {n : Nat} (h : n < 16) : hexValue? (upperHexDigit n) = some n := by
  interval_cases n <;> decide

theorem percentDecode_percentByte (byte : UInt8) (rest : List Char) :
    percentDecode (percentByte byte ++ rest) = byte :: percentDecode rest := by
  have hByte : byte.toNat < 256 := byte.toNat_lt
  have hHigh := hexValue?_upperHexDigit (show byte.toNat / 16 % 16 < 16 by omega)
  have hLow := hexValue?_upperHexDigit (show byte.toNat % 16 < 16 by omega)
  have hValue : 16 * (byte.toNat / 16 % 16) + byte.toNat % 16 = byte.toNat := by omega
  simp [percentByte, upperHexDigits, percentDecode, hHigh, hLow, hValue]

theorem percentDecode_flatMap_percentByte (bytes : List UInt8) (rest : List Char) :
    percentDecode (bytes.flatMap percentByte ++ rest) = bytes ++ percentDecode rest := by
  induction bytes with
  | nil => rfl
  | cons byte bytes ih => simp [percentDecode_percentByte, ih]

theorem percentDecode_cons_of_ne {c : Char} (h : c ≠ '%') (rest : List Char) :
    percentDecode (c :: rest) = String.utf8EncodeChar c ++ percentDecode rest := by
  rw [percentDecode.eq_3]
  rintro high low more rfl
  exact absurd rfl h

/-! ## Texts -/

/-- Where percent signs are escaped, a text is read back as its UTF-8 form. -/
theorem percentDecode_percentEncode {escaped : Char → Bool} (h : escaped '%' = true)
    (text : List Char) :
    percentDecode (percentEncode escaped text) = text.flatMap String.utf8EncodeChar := by
  induction text with
  | nil => rfl
  | cons c text ih =>
      by_cases hEscaped : escaped c = true
      · calc percentDecode (percentEncode escaped (c :: text))
            = percentDecode (percentChar c ++ percentEncode escaped text) := by
              simp [percentEncode, hEscaped]
          _ = String.utf8EncodeChar c ++ percentDecode (percentEncode escaped text) :=
              percentDecode_flatMap_percentByte _ _
          _ = (c :: text).flatMap String.utf8EncodeChar := by simp [ih]
      · have hNe : c ≠ '%' := by
          rintro rfl
          exact hEscaped h
        calc percentDecode (percentEncode escaped (c :: text))
            = percentDecode (c :: percentEncode escaped text) := by
              simp [percentEncode, hEscaped]
          _ = (c :: text).flatMap String.utf8EncodeChar := by
              rw [percentDecode_cons_of_ne hNe, ih, List.flatMap_cons]

theorem eq_of_flatMap_utf8EncodeChar {a b : List Char}
    (h : a.flatMap String.utf8EncodeChar = b.flatMap String.utf8EncodeChar) : a = b := by
  have hBytes : (String.ofList a).toByteArray = (String.ofList b).toByteArray := by
    simp only [String.toByteArray_ofList, List.utf8Encode, h]
  exact String.ofList_injective (String.toByteArray_inj.mp hBytes)

/-! ## Dots -/

/-- Only capital letters are changed in lower case. -/
theorem toLower_eq_or (c : Char) :
    c.toLower = c ∨ 65 ≤ c.toNat ∧ c.toNat ≤ 90 ∧ c.toLower.toNat = c.toNat + 32 := by
  by_cases hCapital : c.val ≥ 'A'.val ∧ c.val ≤ 'Z'.val
  · have hRange : 65 ≤ c.toNat ∧ c.toNat ≤ 90 := by
      simpa [UInt32.le_iff_toNat_le] using hCapital
    refine .inr ⟨hRange.1, hRange.2, ?_⟩
    rw [← Char.ofNat_toNat c]
    generalize c.toNat = n at hRange
    obtain ⟨hLow, hHigh⟩ := hRange
    interval_cases n <;> decide
  · exact .inl (dif_neg hCapital)

theorem eq_of_toLower_eq {c lower : Char} (h : c.toLower = lower) (hLower : lower.toNat < 97) :
    c = lower := by
  rcases toLower_eq_or c with hSame | ⟨hLow, -, hCode⟩
  · exact hSame.symm.trans h
  · rw [h] at hCode
    omega

theorem hexValue?_of_toLower_eq_e {c : Char} (h : c.toLower = 'e') : hexValue? c = some 14 := by
  rcases toLower_eq_or c with hSame | ⟨-, -, hCode⟩
  · rw [← hSame, h]
    decide
  · have hCapital : c.toNat = 69 := by
      rw [h] at hCode
      simpa using hCode.symm
    rw [← Char.ofNat_toNat c, hCapital]
    decide

/-- A dot written as a byte, in either case. -/
theorem percentDecode_writtenDot {percent two e : Char} (hPercent : percent.toLower = '%')
    (hTwo : two.toLower = '2') (hE : e.toLower = 'e') (rest : List Char) :
    percentDecode (percent :: two :: e :: rest) =
      String.utf8EncodeChar '.' ++ percentDecode rest := by
  obtain rfl := eq_of_toLower_eq hPercent (by decide)
  obtain rfl := eq_of_toLower_eq hTwo (by decide)
  have hTwoValue : hexValue? '2' = some 2 := by decide
  have hByte : UInt8.ofNat 46 :: percentDecode rest =
      String.utf8EncodeChar '.' ++ percentDecode rest := rfl
  simpa [percentDecode, hTwoValue, hexValue?_of_toLower_eq_e hE] using hByte

/-- The ways to write a dot all stand for a dot. -/
theorem percentDecode_of_isSingleDot {segment : List Char} (h : isSingleDot segment = true) :
    percentDecode segment = ['.'].flatMap String.utf8EncodeChar := by
  simp only [isSingleDot, Bool.or_eq_true, beq_iff_eq, List.map_eq_cons_iff, List.map_eq_nil_iff]
    at h
  rcases h with rfl | ⟨_, _, rfl, hPercent, _, _, rfl, hTwo, _, _, rfl, hE, rfl⟩
  · rfl
  · exact percentDecode_writtenDot hPercent hTwo hE []

theorem percentDecode_of_isDoubleDot {segment : List Char} (h : isDoubleDot segment = true) :
    percentDecode segment = ['.', '.'].flatMap String.utf8EncodeChar := by
  simp only [isDoubleDot, List.contains_eq_mem, List.mem_cons, List.not_mem_nil, or_false,
    decide_eq_true_eq, List.map_eq_cons_iff, List.map_eq_nil_iff] at h
  rcases h with ⟨_, _, rfl, hDot, _, _, rfl, hDot', rfl⟩ |
    ⟨_, _, rfl, hDot, _, _, rfl, hPercent, _, _, rfl, hTwo, _, _, rfl, hE, rfl⟩ |
    ⟨_, _, rfl, hPercent, _, _, rfl, hTwo, _, _, rfl, hE, _, _, rfl, hDot, rfl⟩ |
    ⟨_, _, rfl, hPercent, _, _, rfl, hTwo, _, _, rfl, hE, _, _, rfl, hPercent', _, _, rfl, hTwo', _,
      _, rfl, hE', rfl⟩
  · rw [eq_of_toLower_eq hDot (by decide), eq_of_toLower_eq hDot' (by decide)]
    rfl
  · rw [eq_of_toLower_eq hDot (by decide), percentDecode_cons_of_ne (by decide),
      percentDecode_writtenDot hPercent hTwo hE]
    rfl
  · rw [eq_of_toLower_eq hDot (by decide), percentDecode_writtenDot hPercent hTwo hE]
    rfl
  · rw [percentDecode_writtenDot hPercent hTwo hE, percentDecode_writtenDot hPercent' hTwo' hE']
    rfl

/-! ## Segments -/

/-- The text is written as a segment of its own, with nothing lost. -/
structure IsSegmentText (text : String) : Prop where
  notSingleDot : text ≠ "."
  notDoubleDot : text ≠ ".."
  noTabOrBreak : ∀ c ∈ text.toList, isTabOrBreak c = false

/-- How a text is written as a segment. -/
def writtenSegment (text : String) : List Char :=
  percentEncode isEscapedInSegment text.toList

theorem percentDecode_writtenSegment (text : String) :
    percentDecode (writtenSegment text) = text.toList.flatMap String.utf8EncodeChar :=
  percentDecode_percentEncode (by decide) text.toList

theorem writtenSegment_inj {a b : String} : writtenSegment a = writtenSegment b ↔ a = b := by
  refine ⟨fun h => String.toList_inj.mp (eq_of_flatMap_utf8EncodeChar ?_), congrArg _⟩
  rw [← percentDecode_writtenSegment, ← percentDecode_writtenSegment, h]

theorem pushSegment_eq {text : String} (h : IsSegmentText text) (path : List (List Char)) :
    pushSegment path text = path ++ [writtenSegment text] := by
  have hKept : text.toList.filter (!isTabOrBreak ·) = text.toList :=
    List.filter_eq_self.mpr fun c hc => by simp [h.noTabOrBreak c hc]
  -- A dot in disguise would be read back as a dot, but it is the text that is read back.
  have hSingle : isSingleDot (writtenSegment text) = false := by
    refine Bool.eq_false_iff.mpr fun hDot => h.notSingleDot (String.toList_inj.mp ?_)
    exact eq_of_flatMap_utf8EncodeChar ((percentDecode_writtenSegment text).symm.trans
      (percentDecode_of_isSingleDot hDot))
  have hDouble : isDoubleDot (writtenSegment text) = false := by
    refine Bool.eq_false_iff.mpr fun hDot => h.notDoubleDot (String.toList_inj.mp ?_)
    exact eq_of_flatMap_utf8EncodeChar ((percentDecode_writtenSegment text).symm.trans
      (percentDecode_of_isDoubleDot hDot))
  rw [pushSegment, if_neg (by simp [h.notSingleDot, h.notDoubleDot]), hKept]
  rw [writtenSegment] at hSingle hDouble ⊢
  simp only [hSingle, hDouble, Bool.false_eq_true, if_false]

/-- Branches of one project that differ in name differ in address. -/
theorem BranchServer.branchAddress_inj {server : BranchServer} {projectPath a b : String}
    (hA : IsSegmentText a) (hB : IsSegmentText b) :
    server.branchAddress projectPath a = server.branchAddress projectPath b ↔ a = b := by
  refine ⟨fun h => ?_, congrArg _⟩
  have hPath := congrArg WebAddress.path h
  simp only [branchAddress, List.foldl_cons, List.foldl_nil, pushSegment_eq hA,
    pushSegment_eq hB] at hPath
  simpa [writtenSegment_inj] using hPath

end PipelineUpkeep

/-!
# Blank characters and words

Blank means the Unicode property White_Space: 25 code points, not only the
ASCII ones.  Trimming and splitting into words work on character lists.  A word
is a longest run of characters that are not blank, so no word is empty and none
holds a blank character.
-/

namespace PipelineUpkeep.Text

/-- The code points with the property White_Space. -/
def isBlank (c : Char) : Bool :=
  let n := c.toNat
  (9 ≤ n && n ≤ 13) || n == 0x20 || n == 0x85 || n == 0xA0 || n == 0x1680 ||
    (0x2000 ≤ n && n ≤ 0x200A) || n == 0x2028 || n == 0x2029 || n == 0x202F ||
    n == 0x205F || n == 0x3000

/-- Drop the blank characters at the front. -/
def trimStart (text : List Char) : List Char :=
  text.dropWhile isBlank

/-- Drop the characters at the end that satisfy `drop`. -/
def dropEndWhile (drop : Char → Bool) (text : List Char) : List Char :=
  (text.reverse.dropWhile drop).reverse

/-- Drop the blank characters at both ends. -/
def trim (text : List Char) : List Char :=
  dropEndWhile isBlank (trimStart text)

/-- Collect words from the left; `current` is the unfinished word, reversed. -/
def wordsFrom (current : List Char) : List Char → List (List Char)
  | [] => if current.isEmpty then [] else [current.reverse]
  | c :: rest =>
      if isBlank c then
        if current.isEmpty then wordsFrom [] rest
        else current.reverse :: wordsFrom [] rest
      else wordsFrom (c :: current) rest

/-- The words of a text, in order. -/
def words (text : List Char) : List (List Char) :=
  wordsFrom [] text

/-- The parts before and after the first `separator`, if there is one. -/
def splitAtFirst? (separator : Char) : List Char → Option (List Char × List Char)
  | [] => none
  | c :: rest =>
      if c = separator then some ([], rest)
      else (splitAtFirst? separator rest).map fun (before, after) => (c :: before, after)

theorem splitAtFirst?_eq_some {separator : Char} {text before after : List Char}
    (h : splitAtFirst? separator text = some (before, after)) :
    text = before ++ separator :: after := by
  induction text generalizing before with
  | nil => simp [splitAtFirst?] at h
  | cons c rest ih =>
      simp only [splitAtFirst?] at h
      by_cases hSeparator : c = separator
      · rw [if_pos hSeparator] at h
        obtain ⟨rfl, rfl⟩ := by simpa using h
        simp [hSeparator]
      · rw [if_neg hSeparator] at h
        cases hRest : splitAtFirst? separator rest with
        | none => simp [hRest] at h
        | some parts =>
            obtain ⟨front, back⟩ := parts
            simp [hRest] at h
            obtain ⟨rfl, rfl⟩ := h
            simp [ih hRest]

end PipelineUpkeep.Text

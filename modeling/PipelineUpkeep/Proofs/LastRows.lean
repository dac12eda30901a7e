import Mathlib.Data.List.Induction
import PipelineUpkeep.Proofs.SnapshotLaws
/-!
# Of rows with one key the last counts

A list of rows may be in any order and may hold several rows with one key.  A table that is
made of it holds, for every key of the list, the last row with that key.  This is so for any
collection in which a new row takes the place of the one with its key, so it is proved once
for tables and for the heads of refs.  Heads keep the places at which their refs were first
seen, also when a later row has replaced the first one.
-/

namespace PipelineUpkeep

section Lists

variable {α κ τ : Type} {key : α → κ}

/-- The row stands in the list, and no row after it has its key. -/
def IsLastOfKey (key : α → κ) (rows : List α) (row : α) : Prop :=
  ∃ earlier later, rows = earlier ++ row :: later ∧ ∀ other ∈ later, key other ≠ key row

theorem not_isLastOfKey_nil (row : α) : ¬ IsLastOfKey key [] row := by
  intro h
  obtain ⟨earlier, later, hRows, -⟩ := h
  simp at hRows

theorem isLastOfKey_cons_iff {first row : α} {rest : List α} :
    IsLastOfKey key (first :: rest) row ↔
      IsLastOfKey key rest row ∨ (row = first ∧ ∀ other ∈ rest, key other ≠ key row) := by
  constructor
  · intro h
    obtain ⟨earlier, later, hRows, hLast⟩ := h
    cases earlier with
    | nil =>
        obtain ⟨rfl, rfl⟩ := List.cons.inj hRows
        exact Or.inr ⟨rfl, hLast⟩
    | cons other earlier =>
        obtain ⟨-, rfl⟩ := List.cons.inj hRows
        exact Or.inl ⟨earlier, later, rfl, hLast⟩
  · rintro (⟨earlier, later, rfl, hLast⟩ | ⟨rfl, hLast⟩)
    · exact ⟨first :: earlier, later, rfl, hLast⟩
    · exact ⟨[], rest, rfl, hLast⟩

/-- Every key of a list has a last row. -/
theorem exists_isLastOfKey (key : α → κ) {rows : List α} {row : α} (h : row ∈ rows) :
    ∃ last, IsLastOfKey key rows last ∧ key last = key row := by
  induction rows generalizing row with
  | nil => cases h
  | cons first rest ih =>
      by_cases hLater : ∃ other ∈ rest, key other = key row
      · obtain ⟨other, hOther, hKey⟩ := hLater
        obtain ⟨last, hLast, hSame⟩ := ih hOther
        exact ⟨last, isLastOfKey_cons_iff.mpr (Or.inl hLast), hSame.trans hKey⟩
      · have hFirst : row = first := by
          apply (List.mem_cons.mp h).resolve_right
          intro hRest
          exact hLater ⟨row, hRest, rfl⟩
        refine ⟨row, isLastOfKey_cons_iff.mpr (Or.inr ⟨hFirst, ?_⟩), rfl⟩
        intro other hOther hKey
        exact hLater ⟨other, hOther, hKey⟩

/-- A collection in which every new row takes the place of the one with its key holds the
last row of every key that was put into it, and the old rows of the other keys. -/
theorem holds_foldl_iff (holds : τ → α → Prop) (put : τ → α → τ)
    (hPut : ∀ held new row, holds (put held new) row ↔
      row = new ∨ (holds held row ∧ key row ≠ key new))
    (held : τ) (rows : List α) (row : α) :
    holds (rows.foldl put held) row ↔
      IsLastOfKey key rows row ∨ (holds held row ∧ ∀ other ∈ rows, key other ≠ key row) := by
  induction rows generalizing held with
  | nil => simp [not_isLastOfKey_nil]
  | cons first rest ih =>
      rw [List.foldl_cons, ih, hPut, isLastOfKey_cons_iff, List.forall_mem_cons, ne_comm]
      tauto

/-- A value that is named last is a new one, or it has its place already. -/
theorem eraseDups_concat [BEq α] [LawfulBEq α] (items : List α) (item : α) :
    (items ++ [item]).eraseDups =
      if item ∈ items then items.eraseDups else items.eraseDups ++ [item] := by
  rw [List.eraseDups_append, List.removeAll]
  by_cases hMem : item ∈ items
  · have hNone : [item].filter (fun x => !items.elem x) = [] := by simp [hMem]
    rw [hNone, if_pos hMem]
    exact List.append_nil _
  · have hSelf : [item].filter (fun x => !items.elem x) = [item] := by simp [hMem]
    rw [hSelf, if_neg hMem, List.eraseDups_cons]
    rfl

end Lists

namespace Table

variable {α : Type} {key : α → Nat}

/-- The last row of every key, in increasing order of the keys. -/
structure ListsLast (key : α → Nat) (rows listed : List α) : Prop where
  mem_iff : ∀ row, row ∈ listed ↔ IsLastOfKey key rows row
  sorted : listed.Pairwise (key · < key ·)

theorem mem_rows_ofList_iff (rows : List α) (row : α) :
    row ∈ (ofList rows : Table α key).rows ↔ IsLastOfKey key rows row := by
  have hHolds := holds_foldl_iff (fun (table : Table α key) row => row ∈ table.rows) insert
    mem_rows_insert_iff empty rows row
  simpa [ofList, insertAll] using hHolds

theorem listsLast_ofList (rows : List α) : ListsLast key rows (ofList rows : Table α key).rows where
  mem_iff := mem_rows_ofList_iff rows
  sorted := (ofList rows).sorted

end Table

theorem mem_setHead_iff {head other : RefHead} {heads : List RefHead}
    (h : heads.Pairwise (·.key ≠ ·.key)) :
    other ∈ setHead head heads ↔ other = head ∨ (other ∈ heads ∧ other.key ≠ head.key) := by
  induction heads with
  | nil => simp [setHead]
  | cons first rest ih =>
      obtain ⟨hFirst, hRest⟩ := List.pairwise_cons.mp h
      by_cases hSame : first.key = head.key
      · have hOthers : ∀ later ∈ rest, later.key ≠ head.key := by
          intro later hLater hKey
          exact hFirst later hLater (hSame.trans hKey.symm)
        simp only [setHead, hSame, if_true, List.mem_cons]
        constructor
        · rintro (hHead | hLater)
          · exact Or.inl hHead
          · exact Or.inr ⟨Or.inr hLater, hOthers other hLater⟩
        · rintro (hHead | ⟨rfl | hLater, hKey⟩)
          · exact Or.inl hHead
          · exact absurd hSame hKey
          · exact Or.inr hLater
      · simp only [setHead, hSame, if_false, List.mem_cons, ih hRest]
        constructor
        · rintro (rfl | hHead | ⟨hLater, hKey⟩)
          · exact Or.inr ⟨Or.inl rfl, hSame⟩
          · exact Or.inl hHead
          · exact Or.inr ⟨Or.inr hLater, hKey⟩
        · tauto

/-- A head that replaces another one takes its place, and a head of a new ref goes to the
end. -/
theorem map_key_setHead (head : RefHead) (heads : List RefHead) :
    (setHead head heads).map RefHead.key =
      if head.key ∈ heads.map RefHead.key then heads.map RefHead.key
      else heads.map RefHead.key ++ [head.key] := by
  induction heads with
  | nil => simp [setHead]
  | cons first rest ih =>
      by_cases hSame : first.key = head.key
      · simp [setHead, hSame]
      · have hOther : head.key ≠ first.key := Ne.symm hSame
        by_cases hRest : head.key ∈ rest.map RefHead.key
        · simp only [setHead, hSame, if_false, List.map_cons, ih, hRest, if_true,
            List.mem_cons_of_mem]
        · simp only [setHead, hSame, if_false, List.map_cons, ih, hRest, List.mem_cons, hOther,
            or_self, List.cons_append]

namespace RefTable

theorem mem_heads_ofList_iff (heads : List RefHead) (head : RefHead) :
    head ∈ (ofList heads).heads ↔ IsLastOfKey RefHead.key heads head := by
  have hHolds := holds_foldl_iff (fun (refs : RefTable) head => head ∈ refs.heads) set
    (fun refs _ _ => mem_setHead_iff refs.distinct) empty heads head
  simpa [ofList, empty] using hHolds

/-- The refs of a table stand in the order in which its list names them first. -/
theorem map_key_ofList (heads : List RefHead) :
    (ofList heads).heads.map RefHead.key = (heads.map RefHead.key).eraseDups := by
  induction heads using List.reverseRecOn with
  | nil => rfl
  | append_singleton heads head ih =>
      have hStep : ofList (heads ++ [head]) = (ofList heads).set head := by
        simp [ofList]
      have hSet : ((ofList heads).set head).heads = setHead head (ofList heads).heads := rfl
      rw [hStep, hSet, map_key_setHead, ih, List.map_append, List.map_singleton,
        eraseDups_concat]
      simp only [List.mem_eraseDups]

end RefTable

end PipelineUpkeep

import Mathlib.Data.List.Sort
import PipelineUpkeep.Cancellation.Summary
import PipelineUpkeep.Store.Table
/-!
# Laws of tables

What a table holds after rows were inserted, changed or removed from sight.  A row
is found again by its key, since a key has one row; a fresh key goes to the end.
Sets of identifiers are tables of numbers and get their own membership laws.
-/

namespace PipelineUpkeep

variable {α : Type} {key : α → Nat}

/-- Insertion keeps the rows of other keys and drops the row of its own. -/
theorem mem_insertByKey_iff {row x : α} {rows : List α}
    (hSorted : rows.Pairwise (key · < key ·)) :
    x ∈ insertByKey key row rows ↔ x = row ∨ (x ∈ rows ∧ key x ≠ key row) := by
  induction rows with
  | nil => simp [insertByKey]
  | cons other rest ih =>
      obtain ⟨hHead, hTail⟩ := List.pairwise_cons.mp hSorted
      have hRest : ∀ y ∈ rest, key other < key y := hHead
      simp only [insertByKey]
      split
      · rename_i hLt
        have hKeys : ∀ y ∈ other :: rest, key y ≠ key row := by
          intro y hy
          rcases List.mem_cons.mp hy with rfl | hy
          · omega
          · have := hRest y hy
            omega
        rw [List.mem_cons]
        exact or_congr_right ⟨fun hx => ⟨hx, hKeys x hx⟩, fun hx => hx.1⟩
      · split
        · rename_i hEq
          have hKeys : ∀ y ∈ rest, key y ≠ key row := by
            intro y hy
            have := hRest y hy
            omega
          rw [List.mem_cons, List.mem_cons]
          refine or_congr_right ⟨fun hx => ⟨Or.inr hx, hKeys x hx⟩, ?_⟩
          rintro ⟨rfl | hx, hNe⟩
          · exact absurd hEq.symm hNe
          · exact hx
        · rename_i hNe
          rw [List.mem_cons, ih hTail, List.mem_cons]
          constructor
          · rintro (rfl | rfl | ⟨hx, hKey⟩)
            · exact Or.inr ⟨Or.inl rfl, fun h => hNe h.symm⟩
            · exact Or.inl rfl
            · exact Or.inr ⟨Or.inr hx, hKey⟩
          · rintro (rfl | ⟨rfl | hx, hKey⟩)
            · exact Or.inr (Or.inl rfl)
            · exact Or.inl rfl
            · exact Or.inr (Or.inr ⟨hx, hKey⟩)

/-- A row whose key is past all others goes to the end. -/
theorem insertByKey_of_forall_lt {row : α} {rows : List α}
    (hKeys : ∀ other ∈ rows, key other < key row) :
    insertByKey key row rows = rows ++ [row] := by
  induction rows with
  | nil => rfl
  | cons first rest ih =>
      have hFirst := hKeys first List.mem_cons_self
      have hRest := ih fun other hOther => hKeys other (List.mem_cons_of_mem _ hOther)
      rw [insertByKey, if_neg (Nat.lt_asymm hFirst), if_neg (Nat.ne_of_gt hFirst), hRest]
      rfl

namespace Table

/-- Two rows of a table with one key are one row. -/
theorem eq_of_key_eq (table : Table α key) {a b : α} (ha : a ∈ table.rows)
    (hb : b ∈ table.rows) (h : key a = key b) : a = b := by
  have hFound : table.find? (key b) = some a := (table.find?_eq_some_iff _ _).mpr ⟨ha, h⟩
  have hSame : table.find? (key b) = some b := (table.find?_eq_some_iff _ _).mpr ⟨hb, rfl⟩
  exact Option.some.inj (hFound.symm.trans hSame)

theorem find?_key (table : Table α key) {row : α} (h : row ∈ table.rows) :
    table.find? (key row) = some row :=
  (table.find?_eq_some_iff _ _).mpr ⟨h, rfl⟩

/-- A changed row is found where the row was. -/
theorem find?_mapRows (table : Table α key) {change : α → α}
    (keeps : ∀ row, key (change row) = key row) (k : Nat) :
    (table.mapRows change keeps).find? k = (table.find? k).map change := by
  have hKeeps : ((fun row => key row == k) ∘ change) = fun row => key row == k := by
    funext row
    show (key (change row) == k) = (key row == k)
    rw [keeps]
  show (table.rows.map change).find? (fun row => key row == k) = _
  rw [List.find?_map, hKeeps]
  rfl

/-- Only the row under the key of a change is found changed. -/
theorem find?_modify (table : Table α key) (k : Nat) (change : α → α)
    (keeps : ∀ row, key (change row) = key row) (other : Nat) :
    (table.modify k change keeps).find? other =
      (table.find? other).map fun row => if other = k then change row else row := by
  rw [modify, find?_mapRows]
  cases hFound : table.find? other with
  | none => rfl
  | some row =>
      have hKey : key row = other := ((table.find?_eq_some_iff other row).mp hFound).2
      rw [Option.map_some, Option.map_some, hKey]

theorem mem_rows_insert_iff (table : Table α key) (row x : α) :
    x ∈ (table.insert row).rows ↔ x = row ∨ (x ∈ table.rows ∧ key x ≠ key row) :=
  mem_insertByKey_iff table.sorted

/-- A row under a key past all others only joins the rows that are there. -/
theorem mem_rows_insert_iff_of_fresh (table : Table α key) {row : α}
    (hFresh : table.nextKey ≤ key row) (x : α) :
    x ∈ (table.insert row).rows ↔ x = row ∨ x ∈ table.rows := by
  rw [mem_rows_insert_iff]
  refine or_congr_right ⟨fun h => h.1, fun hx => ⟨hx, ?_⟩⟩
  have := table.key_lt_nextKey hx
  omega

/-- A row under a key past all others goes to the end. -/
theorem rows_insert_of_fresh (table : Table α key) {row : α} (hFresh : table.nextKey ≤ key row) :
    (table.insert row).rows = table.rows ++ [row] :=
  insertByKey_of_forall_lt fun _ hOther =>
    Nat.lt_of_lt_of_le (table.key_lt_nextKey hOther) hFresh

theorem nextKey_insert_of_fresh (table : Table α key) {row : α}
    (hFresh : table.nextKey ≤ key row) : (table.insert row).nextKey = key row + 1 := by
  rw [nextKey, rows_insert_of_fresh table hFresh, List.getLast?_concat]

/-- Rows past those of a table, in order, join them at the end. -/
theorem rows_insertAll_of_sorted (table : Table α key) {rows : List α}
    (hSorted : (table.rows ++ rows).Pairwise (key · < key ·)) :
    (table.insertAll rows).rows = table.rows ++ rows := by
  induction rows generalizing table with
  | nil => exact (List.append_nil _).symm
  | cons row rest ih =>
      have hInsert : (table.insert row).rows = table.rows ++ [row] :=
        insertByKey_of_forall_lt fun other hOther =>
          (List.pairwise_append.mp hSorted).2.2 other hOther row List.mem_cons_self
      have hJoined : (table.insert row).rows ++ rest = table.rows ++ row :: rest := by
        rw [hInsert, List.append_assoc, List.singleton_append]
      exact (ih (table.insert row) (hJoined ▸ hSorted)).trans hJoined

/-- The table of its rows is the table itself. -/
theorem ofList_rows (table : Table α key) : ofList table.rows = table :=
  ext (rows_insertAll_of_sorted empty table.sorted)

/-- Inserting rows brings no others into a table. -/
theorem mem_of_mem_insertAll {table : Table α key} {rows : List α} {row : α}
    (h : row ∈ (table.insertAll rows).rows) : row ∈ table.rows ∨ row ∈ rows := by
  induction rows generalizing table with
  | nil => exact Or.inl h
  | cons first rest ih =>
      rcases ih h with hTable | hRest
      · rcases mem_insertByKey hTable with rfl | hOld
        · exact Or.inr List.mem_cons_self
        · exact Or.inl hOld
      · exact Or.inr (List.mem_cons_of_mem _ hRest)

theorem mem_of_mem_ofList {rows : List α} {row : α}
    (h : row ∈ (ofList rows : Table α key).rows) : row ∈ rows :=
  (mem_of_mem_insertAll h).resolve_left List.not_mem_nil

/-- The rows of a table whose keys were free in another one. -/
def newRows (before after : Table α key) : List α :=
  after.rows.filter fun row => (before.find? (key row)).isNone

theorem newRows_eq_nil {before after : Table α key}
    (h : ∀ row ∈ after.rows, ∃ old ∈ before.rows, key old = key row) :
    newRows before after = [] := by
  refine List.filter_eq_nil_iff.mpr fun row hRow => ?_
  obtain ⟨old, hOld, hKey⟩ := h row hRow
  rw [← hKey, before.find?_key hOld]
  exact Bool.false_ne_true

theorem newRows_append {before after : Table α key} {added : List α}
    (h : after.rows = before.rows ++ added) : newRows before after = added := by
  have hSorted := after.sorted
  rw [h, List.pairwise_append] at hSorted
  unfold newRows
  rw [h, List.filter_append]
  have hOld : before.rows.filter (fun row => (before.find? (key row)).isNone) = [] :=
    newRows_eq_nil fun row hRow => ⟨row, hRow, rfl⟩
  have hNew : added.filter (fun row => (before.find? (key row)).isNone) = added := by
    refine List.filter_eq_self.mpr fun row hRow => ?_
    have hFree : before.find? (key row) = none := (before.find?_eq_none_iff _).mpr fun old hMem =>
      Nat.ne_of_lt (hSorted.2.2 old hMem row hRow)
    rw [hFree]
    rfl
  rw [hOld, hNew]
  rfl

/-- Lists in strict order of their keys are equal when they have the same members. -/
theorem eq_of_mem_iff {rows others : List α} (hRows : rows.Pairwise (key · < key ·))
    (hOthers : others.Pairwise (key · < key ·)) (h : ∀ x, x ∈ rows ↔ x ∈ others) :
    rows = others := by
  have hIrrefl : Std.Irrefl fun a b : α => key a < key b := ⟨fun a => Nat.lt_irrefl (key a)⟩
  have hAntisymm : Std.Antisymm fun a b : α => key a < key b :=
    ⟨fun a b hab hba => absurd (Nat.lt_trans hab hba) (Nat.lt_irrefl _)⟩
  exact hRows.eq_of_mem_iff hOthers (fun {x} => h x)

end Table

namespace IdSet

theorem mem_toList_insert_iff (ids : IdSet) (id x : Nat) :
    x ∈ IdSet.toList (ids.insert id) ↔ x = id ∨ x ∈ ids.toList := by
  rw [IdSet.toList, Table.mem_rows_insert_iff]
  constructor
  · rintro (h | ⟨h, -⟩)
    · exact Or.inl h
    · exact Or.inr h
  · intro h
    by_cases hEq : x = id
    · exact Or.inl hEq
    · exact Or.inr ⟨h.resolve_left hEq, hEq⟩

theorem mem_toList_insertAll_iff (ids : IdSet) (added : List Nat) (x : Nat) :
    x ∈ IdSet.toList (ids.insertAll added) ↔ x ∈ added ∨ x ∈ ids.toList := by
  induction added generalizing ids with
  | nil => simp [Table.insertAll]
  | cons first rest ih =>
      have hStep : ids.insertAll (first :: rest) = (ids.insert first).insertAll rest := rfl
      rw [hStep, ih, mem_toList_insert_iff, List.mem_cons, or_left_comm, or_assoc]

end IdSet

end PipelineUpkeep

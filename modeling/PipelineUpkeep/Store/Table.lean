/-!
# Tables of rows

A table holds rows in strictly increasing order of a numeric key of theirs, so a
key has at most one row and the key under which a row is found is its own.  The
view of a table is its list of rows; every operation is stated on it.
-/

namespace PipelineUpkeep

/-- Put a row at its place, in place of a row with the same key. -/
def insertByKey {α : Type} (key : α → Nat) (row : α) : List α → List α
  | [] => [row]
  | other :: rest =>
      if key row < key other then row :: other :: rest
      else if key row = key other then row :: rest
      else other :: insertByKey key row rest

theorem mem_insertByKey {α : Type} {key : α → Nat} {row x : α} {rows : List α}
    (h : x ∈ insertByKey key row rows) : x = row ∨ x ∈ rows := by
  induction rows with
  | nil => simpa [insertByKey] using h
  | cons other rest ih =>
      simp only [insertByKey] at h
      split at h
      · simpa using h
      · split at h
        · rcases List.mem_cons.mp h with rfl | hRest
          · exact Or.inl rfl
          · exact Or.inr (List.mem_cons_of_mem _ hRest)
        · rcases List.mem_cons.mp h with rfl | hRest
          · exact Or.inr List.mem_cons_self
          · rcases ih hRest with rfl | hTail
            · exact Or.inl rfl
            · exact Or.inr (List.mem_cons_of_mem _ hTail)

theorem pairwise_insertByKey {α : Type} {key : α → Nat} (row : α) {rows : List α}
    (h : rows.Pairwise (key · < key ·)) :
    (insertByKey key row rows).Pairwise (key · < key ·) := by
  induction rows with
  | nil => simp [insertByKey]
  | cons other rest ih =>
      obtain ⟨hHead, hTail⟩ := List.pairwise_cons.mp h
      simp only [insertByKey]
      split
      · rename_i hLt
        refine List.pairwise_cons.mpr ⟨fun x hx => ?_, h⟩
        rcases List.mem_cons.mp hx with rfl | hx
        · exact hLt
        · exact Nat.lt_trans hLt (hHead x hx)
      · split
        · rename_i hEq
          exact List.pairwise_cons.mpr ⟨fun x hx => hEq ▸ hHead x hx, hTail⟩
        · refine List.pairwise_cons.mpr ⟨fun x hx => ?_, ih hTail⟩
          rcases mem_insertByKey hx with rfl | hx
          · omega
          · exact hHead x hx

/-- Rows in strictly increasing order of their keys. -/
structure Table (α : Type) (key : α → Nat) where
  rows : List α
  sorted : rows.Pairwise (key · < key ·)

namespace Table

variable {α : Type} {key : α → Nat}

@[ext]
theorem ext {a b : Table α key} (h : a.rows = b.rows) : a = b := by
  cases a
  cases b
  cases h
  rfl

def empty : Table α key := ⟨[], List.Pairwise.nil⟩

instance : Inhabited (Table α key) := ⟨empty⟩

/-- The row with a key. -/
def find? (table : Table α key) (k : Nat) : Option α :=
  table.rows.find? fun row => key row == k

/-- Add a row, or replace the row with its key. -/
def insert (table : Table α key) (row : α) : Table α key :=
  ⟨insertByKey key row table.rows, pairwise_insertByKey row table.sorted⟩

/-- Insert rows one after the other; of rows with one key the last stays. -/
def insertAll (table : Table α key) (rows : List α) : Table α key :=
  rows.foldl insert table

def ofList (rows : List α) : Table α key :=
  empty.insertAll rows

/-- One more than the greatest key; one for an empty table.  Keys are unbounded here and
have 64 bits in the program, where there is no next key after 2⁶⁴ - 1. -/
def nextKey (table : Table α key) : Nat :=
  match table.rows.getLast? with
  | some row => key row + 1
  | none => 1

/-- Change rows without changing their keys. -/
def mapRows (table : Table α key) (change : α → α) (keeps : ∀ row, key (change row) = key row) :
    Table α key where
  rows := table.rows.map change
  sorted := by
    rw [List.pairwise_map]
    exact table.sorted.imp fun {a b} h => by rw [keeps a, keeps b]; exact h

/-- Change the row with a key, if there is one. -/
def modify (table : Table α key) (k : Nat) (change : α → α)
    (keeps : ∀ row, key (change row) = key row) : Table α key :=
  table.mapRows (fun row => if key row = k then change row else row) fun row => by
    split
    · exact keeps row
    · rfl

@[simp]
theorem rows_empty : (empty : Table α key).rows = [] := rfl

@[simp]
theorem rows_mapRows (table : Table α key) (change : α → α)
    (keeps : ∀ row, key (change row) = key row) :
    (table.mapRows change keeps).rows = table.rows.map change := rfl

theorem find?_eq_some_iff (table : Table α key) (k : Nat) (row : α) :
    table.find? k = some row ↔ row ∈ table.rows ∧ key row = k := by
  obtain ⟨rows, hSorted⟩ := table
  unfold find?
  constructor
  · intro h
    exact ⟨List.mem_of_find?_eq_some h, by simpa using List.find?_some h⟩
  · rintro ⟨hMem, hKey⟩
    induction rows with
    | nil => simp at hMem
    | cons other rest ih =>
        obtain ⟨hHead, hTail⟩ := List.pairwise_cons.mp hSorted
        rcases List.mem_cons.mp hMem with rfl | hRest
        · simp [hKey]
        · have hOther : key other ≠ k := by
            have := hHead row hRest
            omega
          simp only [List.find?_cons, beq_eq_false_iff_ne.mpr hOther]
          exact ih hTail hRest

theorem find?_eq_none_iff (table : Table α key) (k : Nat) :
    table.find? k = none ↔ ∀ row ∈ table.rows, key row ≠ k := by
  simp [find?, List.find?_eq_none]

theorem key_lt_nextKey (table : Table α key) {row : α} (h : row ∈ table.rows) :
    key row < table.nextKey := by
  obtain ⟨rows, hSorted⟩ := table
  unfold nextKey
  simp only at h ⊢
  rcases List.eq_nil_or_concat rows with rfl | ⟨front, last, rfl⟩
  · simp at h
  · rw [List.concat_eq_append] at h hSorted ⊢
    rw [List.getLast?_concat]
    rcases List.mem_append.mp h with hFront | hLast
    · have := (List.pairwise_append.mp hSorted).2.2 row hFront last (by simp)
      simp only
      omega
    · rw [List.mem_singleton.mp hLast]
      simp

end Table

end PipelineUpkeep

import PipelineUpkeep.Proofs.TableLaws
import PipelineUpkeep.Store.Evaluation
/-!
# Descendants are what parent links reach

The rounds in which descendants are found are bounded by the number of rows.  This
module proves that the bound never cuts the search short: the rows found are
exactly those that a chain of parent links inside one project connects to a row of
the base, whatever the links are (cycles, rows that are their own parent, parents
that do not exist).
-/

namespace PipelineUpkeep

/-- The rows that a chain of child links leads to from a root, all of them stored
and each with its parent in the same project. -/
inductive Descends (rows : List Pipeline) (isRoot : Pipeline → Prop) : Pipeline → Prop
  | root {row : Pipeline} (hRow : row ∈ rows) (hRoot : isRoot row) : Descends rows isRoot row
  | child {parent row : Pipeline} (hParent : Descends rows isRoot parent) (hRow : row ∈ rows)
      (hLink : row.parentId = some parent.id) (hProject : row.projectId = parent.projectId) :
      Descends rows isRoot row

theorem isChildOf_iff (parent child : Pipeline) :
    isChildOf parent child = true ↔
      child.parentId = some parent.id ∧ child.projectId = parent.projectId := by
  simp [isChildOf]

theorem Descends.mem {rows : List Pipeline} {isRoot : Pipeline → Prop} {row : Pipeline}
    (h : Descends rows isRoot row) : row ∈ rows := by
  cases h with
  | root hRow _ => exact hRow
  | child _ hRow _ _ => exact hRow

theorem Descends.imp {rows : List Pipeline} {isRoot isOther : Pipeline → Prop}
    (hRoots : ∀ row ∈ rows, isRoot row → isOther row) {row : Pipeline}
    (h : Descends rows isRoot row) : Descends rows isOther row := by
  induction h with
  | root hRow hRoot => exact .root hRow (hRoots _ hRow hRoot)
  | child _ hRow hLink hProject ih => exact .child ih hRow hLink hProject

/-- A row without a parent is reached as a root only. -/
theorem Descends.isRoot_of_parentId {rows : List Pipeline} {isRoot : Pipeline → Prop}
    {row : Pipeline} (h : Descends rows isRoot row) (hParent : row.parentId = none) :
    isRoot row := by
  cases h with
  | root _ hRoot => exact hRoot
  | child _ _ hLink _ =>
      rw [hParent] at hLink
      cases hLink

/-- Parent links do not leave the project. -/
theorem Descends.projectId_eq {rows : List Pipeline} {isRoot : Pipeline → Prop}
    {projectId : Nat} (hRoots : ∀ root, isRoot root → root.projectId = projectId)
    {row : Pipeline} (h : Descends rows isRoot row) : row.projectId = projectId := by
  induction h with
  | root _ hRoot => exact hRoots _ hRoot
  | child _ _ _ hProject ih => exact hProject.trans ih

section Growth

variable {rows : List Pipeline}

/-- Among rows with distinct identifiers, an identifier stands for its row. -/
theorem any_id_eq_true_iff (hSorted : rows.Pairwise (·.id < ·.id)) {found : List Pipeline}
    (hFound : ∀ row ∈ found, row ∈ rows) {row : Pipeline} (hRow : row ∈ rows) :
    (found.any (·.id == row.id)) = true ↔ row ∈ found := by
  let table : Table Pipeline Pipeline.id := ⟨rows, hSorted⟩
  constructor
  · intro h
    obtain ⟨other, hOther, hId⟩ := List.any_eq_true.mp h
    have hSame : other = row :=
      table.eq_of_key_eq (hFound other hOther) hRow (by simpa using hId)
    exact hSame ▸ hOther
  · intro h
    exact List.any_eq_true.mpr ⟨row, h, by simp⟩

theorem mem_newChildren_iff (hSorted : rows.Pairwise (·.id < ·.id)) {reached : List Pipeline}
    (hReached : ∀ row ∈ reached, row ∈ rows) (frontier : List Pipeline) (row : Pipeline) :
    row ∈ newChildren rows reached frontier ↔
      row ∈ rows ∧ row ∉ reached ∧ ∃ parent ∈ frontier, isChildOf parent row = true := by
  unfold newChildren
  rw [List.mem_filter]
  refine and_congr_right fun hRow => ?_
  rw [Bool.and_eq_true, Bool.not_eq_true', ← Bool.not_eq_true,
    any_id_eq_true_iff hSorted hReached hRow, List.any_eq_true]

/-- The state of the search between two rounds: only stored rows were found, and a
row whose children are not all found is in the newest part. -/
structure GrowthInvariant (rows reached frontier : List Pipeline) : Prop where
  stored : ∀ row ∈ reached, row ∈ rows
  newest : ∀ row ∈ frontier, row ∈ reached
  closed : ∀ parent ∈ reached, parent ∉ frontier →
    ∀ row ∈ rows, isChildOf parent row = true → row ∈ reached

theorem GrowthInvariant.start {base : List Pipeline} (hBase : ∀ row ∈ base, row ∈ rows) :
    GrowthInvariant rows base base where
  stored := hBase
  newest := fun _ h => h
  closed := fun _ h hNot => absurd h hNot

theorem GrowthInvariant.step (hSorted : rows.Pairwise (·.id < ·.id))
    {reached frontier : List Pipeline} (h : GrowthInvariant rows reached frontier) :
    GrowthInvariant rows (reached ++ newChildren rows reached frontier)
      (newChildren rows reached frontier) where
  stored := by
    intro row hRow
    rcases List.mem_append.mp hRow with hOld | hNew
    · exact h.stored row hOld
    · exact ((mem_newChildren_iff hSorted h.stored frontier row).mp hNew).1
  newest := fun _ hRow => List.mem_append_right _ hRow
  closed := by
    intro parent hParent hNotNew row hRow hChild
    have hOld : parent ∈ reached := (List.mem_append.mp hParent).resolve_right hNotNew
    by_cases hFrontier : parent ∈ frontier
    · by_cases hReached : row ∈ reached
      · exact List.mem_append_left _ hReached
      · have hNew : row ∈ newChildren rows reached frontier :=
          (mem_newChildren_iff hSorted h.stored frontier row).mpr
            ⟨hRow, hReached, parent, hFrontier, hChild⟩
        exact List.mem_append_right _ hNew
    · exact List.mem_append_left _ (h.closed parent hOld hFrontier row hRow hChild)

/-- A round that adds a row leaves fewer rows to find. -/
theorem length_unreached_lt {reached added : List Pipeline} {row : Pipeline}
    (hRow : row ∈ rows) (hOld : row ∉ reached) (hNew : row ∈ added) :
    (rows.filter fun x => x ∉ reached ++ added).length <
      (rows.filter fun x => x ∉ reached).length := by
  have hSub : (rows.filter fun x => x ∉ reached ++ added) =
      (rows.filter fun x => x ∉ reached).filter fun x => x ∉ added := by
    rw [List.filter_filter]
    congr 1
    funext x
    simp [Bool.and_comm]
  rw [hSub]
  refine List.length_filter_lt_length_iff_exists.mpr ⟨row, ?_, by simpa using hNew⟩
  exact List.mem_filter.mpr ⟨hRow, by simpa using hOld⟩

/-- With as many rounds as rows are left to find, the search ends with a set that
every child link stays in. -/
theorem growReached_closed (hSorted : rows.Pairwise (·.id < ·.id)) {rounds : Nat}
    {reached frontier : List Pipeline} (h : GrowthInvariant rows reached frontier)
    (hRounds : (rows.filter fun x => x ∉ reached).length ≤ rounds) :
    ∀ parent ∈ growReached rows rounds reached frontier, ∀ row ∈ rows,
      isChildOf parent row = true → row ∈ growReached rows rounds reached frontier := by
  induction rounds generalizing reached frontier with
  | zero =>
      intro parent _ row hRow _
      -- No round is left, but then no row is either.
      have hNone : (rows.filter fun x => x ∉ reached) = [] :=
        List.length_eq_zero_iff.mp (Nat.le_zero.mp hRounds)
      have hReached : row ∈ reached := by
        simpa using List.filter_eq_nil_iff.mp hNone row hRow
      exact hReached
  | succ rounds ih =>
      cases hAdded : newChildren rows reached frontier with
      | nil =>
          have hDone : growReached rows (rounds + 1) reached frontier = reached := by
            rw [growReached, hAdded]
          rw [hDone]
          intro parent hParent row hRow hChild
          by_cases hFrontier : parent ∈ frontier
          · by_contra hNot
            have hNew : row ∈ newChildren rows reached frontier :=
              (mem_newChildren_iff hSorted h.stored frontier row).mpr
                ⟨hRow, hNot, parent, hFrontier, hChild⟩
            rw [hAdded] at hNew
            exact absurd hNew List.not_mem_nil
          · exact h.closed parent hParent hFrontier row hRow hChild
      | cons first others =>
          have hNext : growReached rows (rounds + 1) reached frontier =
              growReached rows rounds (reached ++ newChildren rows reached frontier)
                (newChildren rows reached frontier) := by
            rw [growReached, hAdded]
          -- The round has found a row, so one round less is enough for those left.
          have hFirst : first ∈ newChildren rows reached frontier := by
            rw [hAdded]
            exact List.mem_cons_self
          obtain ⟨hRow, hOld, -⟩ := (mem_newChildren_iff hSorted h.stored frontier first).mp hFirst
          have hFewer := length_unreached_lt hRow hOld hFirst
          rw [hNext]
          exact ih (h.step hSorted) (by omega)

theorem subset_growReached (rounds : Nat) (reached frontier : List Pipeline) :
    ∀ row ∈ reached, row ∈ growReached rows rounds reached frontier := by
  induction rounds generalizing reached frontier with
  | zero => exact fun _ h => h
  | succ rounds ih =>
      intro row hRow
      rw [growReached]
      split
      · exact hRow
      · exact ih _ _ row (List.mem_append_left _ hRow)

/-- Whatever the search finds descends from a root. -/
theorem descends_of_mem_growReached (hSorted : rows.Pairwise (·.id < ·.id))
    {isRoot : Pipeline → Prop} {rounds : Nat} {reached frontier : List Pipeline}
    (h : GrowthInvariant rows reached frontier)
    (hReached : ∀ row ∈ reached, Descends rows isRoot row) :
    ∀ row ∈ growReached rows rounds reached frontier, Descends rows isRoot row := by
  induction rounds generalizing reached frontier with
  | zero => exact hReached
  | succ rounds ih =>
      rw [growReached]
      split
      · exact hReached
      · refine ih (h.step hSorted) fun row hRow => ?_
        rcases List.mem_append.mp hRow with hOld | hNew
        · exact hReached row hOld
        · obtain ⟨hStored, -, parent, hParent, hChild⟩ :=
            (mem_newChildren_iff hSorted h.stored frontier row).mp hNew
          obtain ⟨hLink, hProject⟩ := (isChildOf_iff parent row).mp hChild
          exact .child (hReached parent (h.newest parent hParent)) hStored hLink hProject

/-- The rows of a base and its descendants are those that child links lead to. -/
theorem mem_withDescendants_iff (hSorted : rows.Pairwise (·.id < ·.id)) {base : List Pipeline}
    (hBase : ∀ row ∈ base, row ∈ rows) (row : Pipeline) :
    row ∈ withDescendants rows base ↔ Descends rows (· ∈ base) row := by
  have hStart : GrowthInvariant rows base base := .start hBase
  have hSound : ∀ row ∈ growReached rows rows.length base base, Descends rows (· ∈ base) row :=
    descends_of_mem_growReached hSorted hStart fun row hRow => .root (hBase row hRow) hRow
  have hClosed := growReached_closed hSorted hStart (List.length_filter_le _ rows)
  unfold withDescendants
  rw [List.mem_filter]
  constructor
  · rintro ⟨hRow, hAny⟩
    exact hSound row
      ((any_id_eq_true_iff hSorted (fun x hx => (hSound x hx).mem) hRow).mp hAny)
  · intro hDescends
    have hFound : row ∈ growReached rows rows.length base base := by
      induction hDescends with
      | root _ hRoot => exact subset_growReached _ _ _ _ hRoot
      | child _ hRow hLink hProject ih =>
          exact hClosed _ ih _ hRow ((isChildOf_iff _ _).mpr ⟨hLink, hProject⟩)
    refine ⟨hDescends.mem, ?_⟩
    exact (any_id_eq_true_iff hSorted (fun x hx => (hSound x hx).mem) hDescends.mem).mpr hFound

end Growth

end PipelineUpkeep

import PipelineUpkeep.Proofs.Descendants
/-!
# Descendants through a queue

Rows and all of their descendants can also be found by a walk through a queue.  The row at
the head of the queue is visited, and its children join the queue at its end; a row that has
been visited before is passed over.  The queue may grow, and a row may stand in it any number
of times, but a visit leaves fewer rows to visit, and between two visits the queue only gets
shorter.  So the walk ends, whatever the links are.  It visits no row twice, and it visits
the rows that the search in rounds finds.
-/

namespace PipelineUpkeep

/-- One of some rows. -/
abbrev RowOf (rows : List Pipeline) : Type := {row : Pipeline // row ∈ rows}

variable {rows : List Pipeline}

/-- The children of a row in its project, in the order of the rows. -/
def childrenOf (parent : RowOf rows) : List (RowOf rows) :=
  rows.attach.filter fun child => isChildOf parent.val child.val

/-- A row with this identifier has been visited. -/
def isVisited (visited : List (RowOf rows)) (row : RowOf rows) : Bool :=
  visited.any (·.val.id == row.val.id)

/-- The rows that are left to visit. -/
def unvisited (visited : List (RowOf rows)) : List (RowOf rows) :=
  rows.attach.filter fun row => !isVisited visited row

/-- A visit leaves fewer rows to visit. -/
theorem length_unvisited_lt {visited : List (RowOf rows)} {row : RowOf rows}
    (hNew : isVisited visited row = false) :
    (unvisited (visited ++ [row])).length < (unvisited visited).length := by
  have hFewer : unvisited (visited ++ [row]) =
      (unvisited visited).filter fun other => !(row.val.id == other.val.id) := by
    unfold unvisited
    rw [List.filter_filter]
    congr 1
    funext other
    simp [isVisited, Bool.and_comm]
  rw [hFewer]
  refine List.length_filter_lt_length_iff_exists.mpr ⟨row, ?_, by simp⟩
  exact List.mem_filter.mpr ⟨List.mem_attach _ _, by rw [hNew]; rfl⟩

/-- Visit the rows of a queue one after the other; gives all visited rows in this order. -/
def walkQueue (visited : List (RowOf rows)) : List (RowOf rows) → List (RowOf rows)
  | [] => visited
  | row :: queue =>
      if isVisited visited row then walkQueue visited queue
      else walkQueue (visited ++ [row]) (queue ++ childrenOf row)
termination_by queue => ((unvisited visited).length, queue.length)
decreasing_by
  · exact Prod.Lex.right _ (Nat.lt_succ_self _)
  · rename_i hNew
    exact Prod.Lex.left _ _ (length_unvisited_lt (Bool.eq_false_iff.mpr hNew))

theorem mem_childrenOf_iff (parent child : RowOf rows) :
    child ∈ childrenOf parent ↔ isChildOf parent.val child.val = true := by
  simp [childrenOf]

/-- Rows with distinct identifiers are visited when they are among the visited ones. -/
theorem isVisited_eq_true_iff (hSorted : rows.Pairwise (·.id < ·.id))
    (visited : List (RowOf rows)) (row : RowOf rows) :
    isVisited visited row = true ↔ row ∈ visited := by
  have hStored : ∀ other ∈ visited.map (·.val), other ∈ rows := by
    intro other hOther
    obtain ⟨found, -, rfl⟩ := List.mem_map.mp hOther
    exact found.property
  have hMem := any_id_eq_true_iff hSorted hStored row.property
  rw [List.any_map] at hMem
  refine hMem.trans ⟨fun h => ?_, fun h => List.mem_map_of_mem h⟩
  obtain ⟨found, hFound, hSame⟩ := List.mem_map.mp h
  rwa [← Subtype.ext hSame]

/-- Rows of a queue descend from the roots, and then so does all that the walk visits. -/
theorem descends_of_mem_walkQueue {isRoot : Pipeline → Prop} (visited queue : List (RowOf rows))
    (hVisited : ∀ row ∈ visited, Descends rows isRoot row.val)
    (hQueue : ∀ row ∈ queue, Descends rows isRoot row.val) :
    ∀ row ∈ walkQueue visited queue, Descends rows isRoot row.val := by
  induction visited, queue using walkQueue.induct with
  | case1 visited =>
      rw [walkQueue]
      exact hVisited
  | case2 visited row queue hOld ih =>
      rw [walkQueue, if_pos hOld]
      exact ih hVisited fun other hOther => hQueue other (List.mem_cons_of_mem _ hOther)
  | case3 visited row queue hNew ih =>
      rw [walkQueue, if_neg hNew]
      have hRow := hQueue row List.mem_cons_self
      refine ih (fun other hOther => ?_) fun other hOther => ?_
      · rcases List.mem_append.mp hOther with hEarlier | hLast
        · exact hVisited other hEarlier
        · rw [List.mem_singleton.mp hLast]
          exact hRow
      · rcases List.mem_append.mp hOther with hWaiting | hChild
        · exact hQueue other (List.mem_cons_of_mem _ hWaiting)
        · obtain ⟨hLink, hProject⟩ := (isChildOf_iff _ _).mp ((mem_childrenOf_iff _ _).mp hChild)
          exact .child hRow other.property hLink hProject

/-- The walk gives up neither a visited row nor a row of the queue, and a child of a visited row
has been visited or waits in the queue, so at the end it has been visited. -/
theorem walkQueue_closed (hSorted : rows.Pairwise (·.id < ·.id))
    (visited queue : List (RowOf rows))
    (hChildren : ∀ parent ∈ visited, ∀ child : RowOf rows,
      isChildOf parent.val child.val = true → child ∈ visited ∨ child ∈ queue) :
    (∀ row, row ∈ visited ∨ row ∈ queue → row ∈ walkQueue visited queue) ∧
      ∀ parent ∈ walkQueue visited queue, ∀ child : RowOf rows,
        isChildOf parent.val child.val = true → child ∈ walkQueue visited queue := by
  induction visited, queue using walkQueue.induct with
  | case1 visited =>
      rw [walkQueue]
      refine ⟨fun row hRow => hRow.resolve_right List.not_mem_nil, ?_⟩
      intro parent hParent child hLink
      exact (hChildren parent hParent child hLink).resolve_right List.not_mem_nil
  | case2 visited row queue hOld ih =>
      rw [walkQueue, if_pos hOld]
      have hRow : row ∈ visited := (isVisited_eq_true_iff hSorted visited row).mp hOld
      -- What stood at the head of the queue is among the visited rows.
      have hKept (other : RowOf rows) (h : other ∈ visited ∨ other ∈ row :: queue) :
          other ∈ visited ∨ other ∈ queue := by
        rcases h with hVisited | hQueue
        · exact Or.inl hVisited
        · rcases List.mem_cons.mp hQueue with rfl | hRest
          · exact Or.inl hRow
          · exact Or.inr hRest
      obtain ⟨hAll, hClosed⟩ := ih fun parent hParent child hLink =>
        hKept child (hChildren parent hParent child hLink)
      exact ⟨fun other hOther => hAll other (hKept other hOther), hClosed⟩
  | case3 visited row queue hNew ih =>
      rw [walkQueue, if_neg hNew]
      have hKept (other : RowOf rows) (h : other ∈ visited ∨ other ∈ row :: queue) :
          other ∈ visited ++ [row] ∨ other ∈ queue ++ childrenOf row := by
        rcases h with hVisited | hQueue
        · exact Or.inl (List.mem_append_left _ hVisited)
        · rcases List.mem_cons.mp hQueue with rfl | hRest
          · exact Or.inl (List.mem_append_right _ (List.mem_singleton_self _))
          · exact Or.inr (List.mem_append_left _ hRest)
      obtain ⟨hAll, hClosed⟩ := ih fun parent hParent child hLink => by
        rcases List.mem_append.mp hParent with hEarlier | hLast
        · exact hKept child (hChildren parent hEarlier child hLink)
        · rw [List.mem_singleton.mp hLast] at hLink
          exact Or.inr (List.mem_append_right _ ((mem_childrenOf_iff row child).mpr hLink))
      exact ⟨fun other hOther => hAll other (hKept other hOther), hClosed⟩

/-- No row is visited twice. -/
theorem nodup_walkQueue (hSorted : rows.Pairwise (·.id < ·.id)) (visited queue : List (RowOf rows))
    (hVisited : visited.Nodup) : (walkQueue visited queue).Nodup := by
  induction visited, queue using walkQueue.induct with
  | case1 visited =>
      rw [walkQueue]
      exact hVisited
  | case2 visited row queue hOld ih =>
      rw [walkQueue, if_pos hOld]
      exact ih hVisited
  | case3 visited row queue hNew ih =>
      rw [walkQueue, if_neg hNew]
      have hFresh : row ∉ visited := mt (isVisited_eq_true_iff hSorted visited row).mpr hNew
      refine ih (List.nodup_append.mpr ⟨hVisited, List.nodup_singleton row, ?_⟩)
      intro other hOther last hLast hSame
      rw [hSame, List.mem_singleton.mp hLast] at hOther
      exact hFresh hOther

/-- A walk from a base visits what child links lead to from the base. -/
theorem mem_walkQueue_iff (hSorted : rows.Pairwise (·.id < ·.id)) (base : List (RowOf rows))
    (row : RowOf rows) :
    row ∈ walkQueue [] base ↔ Descends rows (· ∈ base.map (·.val)) row.val := by
  constructor
  · refine descends_of_mem_walkQueue [] base (fun _ h => absurd h List.not_mem_nil)
      (fun root hRoot => ?_) row
    exact .root root.property (List.mem_map_of_mem hRoot)
  · intro hDescends
    obtain ⟨hAll, hClosed⟩ := walkQueue_closed hSorted [] base fun _ h => absurd h List.not_mem_nil
    have hVisits {found : Pipeline} (h : Descends rows (· ∈ base.map (·.val)) found) :
        ∀ hFound : found ∈ rows, ⟨found, hFound⟩ ∈ walkQueue [] base := by
      induction h with
      | root _ hRoot =>
          intro hFound
          obtain ⟨root, hBase, rfl⟩ := List.mem_map.mp hRoot
          exact hAll root (Or.inr hBase)
      | child hParent _ hLink hProject ih =>
          intro hFound
          exact hClosed _ (ih hParent.mem) ⟨_, hFound⟩ ((isChildOf_iff _ _).mpr ⟨hLink, hProject⟩)
    exact hVisits hDescends row.property

/-- The search in rounds and the walk through a queue find the same rows. -/
theorem walkQueue_perm_withDescendants (hSorted : rows.Pairwise (·.id < ·.id))
    (base : List (RowOf rows)) :
    ((walkQueue [] base).map (·.val)).Perm (withDescendants rows (base.map (·.val))) := by
  have hWalk : ((walkQueue [] base).map (·.val)).Nodup :=
    (nodup_walkQueue hSorted [] base List.nodup_nil).map Subtype.val_injective
  have hRounds : (withDescendants rows (base.map (·.val))).Nodup :=
    (hSorted.sublist (Store.withDescendants_sublist rows _)).imp fun h hSame =>
      Nat.ne_of_lt h (congrArg Pipeline.id hSame)
  have hBase : ∀ row ∈ base.map (·.val), row ∈ rows := by
    intro row hRow
    obtain ⟨root, -, rfl⟩ := List.mem_map.mp hRow
    exact root.property
  refine (List.perm_ext_iff_of_nodup hWalk hRounds).mpr fun row => ?_
  rw [mem_withDescendants_iff hSorted hBase]
  constructor
  · intro hRow
    obtain ⟨visited, hVisited, rfl⟩ := List.mem_map.mp hRow
    exact (mem_walkQueue_iff hSorted base visited).mp hVisited
  · intro hDescends
    have hVisited := (mem_walkQueue_iff hSorted base ⟨row, hDescends.mem⟩).mpr hDescends
    exact List.mem_map.mpr ⟨_, hVisited, rfl⟩

end PipelineUpkeep

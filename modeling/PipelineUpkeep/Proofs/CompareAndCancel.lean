import Mathlib.Data.List.Forall2
import PipelineUpkeep.Proofs.Candidates
import PipelineUpkeep.Proofs.QueryAnswers
/-!
# Compare and cancel

A cancellation compares before it writes.  It refuses a pipeline that is not stored, then
one that has settled, whatever the versions are, and then one whose version is not the one
that the caller has read; a refusal writes nothing.  Otherwise it cancels the pipeline, with
cascade also the cancelable pipelines that descend from it, and of each its cancelable builds.
`CancelEffect` says what becomes of every row of the store.

With cascade the pipeline may be canceled first, its descendants looked up by a walk in the
store so changed, and canceled one after the other.  The store is the same in the end: a
cancellation changes no link between rows, and a row that is canceled is not written again,
also where parent links lead back to the pipeline.
-/

namespace PipelineUpkeep

/-- A stored pipeline that a cancellation finds: the one that it names, with cascade also
whatever descends from it, be the pipelines in between cancelable or not. -/
def IsFoundBy (rows : List Pipeline) (id : Nat) (cascade : Bool) (row : Pipeline) : Prop :=
  row ∈ rows ∧ (row.id = id ∨ (cascade = true ∧ Descends rows (·.id = id) row))

/-- A pipeline that a cancellation writes. -/
def IsWrittenBy (rows : List Pipeline) (id : Nat) (cascade : Bool) (row : Pipeline) : Prop :=
  IsFoundBy rows id cascade row ∧ row.status.isCancelable = true

/-- What a cancellation on behalf of `canceledById` does when it writes these pipelines. -/
structure CancelEffect (isWritten : Pipeline → Prop) (canceledById : Nat) (before after : Store) :
    Prop where
  projects : after.projects = before.projects
  users : after.users = before.users
  refs : after.refs = before.refs
  schedules : after.schedules = before.schedules
  pipelines : List.Forall₂
    (fun row later =>
      (isWritten row → later = { row with
        status := .canceled
        autoCanceledById := some (row.autoCanceledById.getD canceledById)
        lockVersion := row.lockVersion + 1 }) ∧
      (¬ isWritten row → later = row))
    before.pipelines.rows after.pipelines.rows
  builds : List.Forall₂
    (fun build later =>
      ((∃ row, isWritten row ∧ build.pipelineId = row.id) ∧ build.status.isCancelable = true →
        later = { build with
          status := .canceled
          autoCanceledById := some (build.autoCanceledById.getD canceledById) }) ∧
      (¬ ((∃ row, isWritten row ∧ build.pipelineId = row.id) ∧
          build.status.isCancelable = true) → later = build))
    before.builds.rows after.builds.rows

theorem orElse_eq_some_getD (first : Option Nat) (second : Nat) :
    (first <|> some second) = some (first.getD second) := by
  cases first <;> rfl

namespace Store

variable {store : Store}

/-! ## What is written -/

theorem isCancelTarget_iff {ids : List Nat} {isFound : Pipeline → Prop}
    (hFound : ∀ row ∈ store.pipelines.rows, row.id ∈ ids ↔ isFound row)
    (hStored : ∀ row, isFound row → row ∈ store.pipelines.rows) (id : Nat) :
    store.isCancelTarget ids id = true ↔
      ∃ row, (isFound row ∧ row.status.isCancelable = true) ∧ id = row.id := by
  constructor
  · intro hTarget
    rw [isCancelTarget, Bool.and_eq_true, List.contains_iff_mem, Option.any_eq_true] at hTarget
    obtain ⟨hId, row, hRow, hStatus⟩ := hTarget
    obtain ⟨hMem, rfl⟩ := (store.pipelines.find?_eq_some_iff _ _).mp hRow
    exact ⟨row, ⟨(hFound row hMem).mp hId, hStatus⟩, rfl⟩
  · rintro ⟨row, ⟨hRow, hStatus⟩, rfl⟩
    have hMem := hStored row hRow
    rw [isCancelTarget_of_mem hMem, hStatus, Bool.and_true, List.contains_iff_mem]
    exact (hFound row hMem).mpr hRow

/-- Canceling the identifiers of some pipelines writes the cancelable ones of them. -/
theorem cancelEffect_cancelRows {ids : List Nat} {isFound : Pipeline → Prop}
    (hFound : ∀ row ∈ store.pipelines.rows, row.id ∈ ids ↔ isFound row)
    (hStored : ∀ row, isFound row → row ∈ store.pipelines.rows) (canceledById : Nat) :
    CancelEffect (fun row => isFound row ∧ row.status.isCancelable = true) canceledById store
      (store.cancelRows ids canceledById) := by
  have hTarget := isCancelTarget_iff hFound hStored
  refine ⟨rfl, rfl, rfl, rfl, ?_, ?_⟩
  · rw [rows_pipelines_cancelRows, List.forall₂_map_right_iff, List.forall₂_same]
    intro row hRow
    have hWritten : store.isCancelTarget ids row.id = true ↔
        isFound row ∧ row.status.isCancelable = true := by
      rw [hTarget]
      constructor
      · rintro ⟨other, hOther, hId⟩
        rwa [store.pipelines.eq_of_key_eq hRow (hStored other hOther.1) hId]
      · intro h
        exact ⟨row, h, rfl⟩
    unfold cancelChange
    refine ⟨fun h => ?_, fun h => if_neg (mt hWritten.mp h)⟩
    rw [if_pos (hWritten.mpr h), Pipeline.afterCancel, orElse_eq_some_getD]
  · rw [rows_builds_cancelRows, List.forall₂_map_right_iff, List.forall₂_same]
    intro build _
    have hWritten : (store.isCancelTarget ids build.pipelineId && build.status.isCancelable) =
        true ↔ (∃ row, (isFound row ∧ row.status.isCancelable = true) ∧ build.pipelineId = row.id) ∧
          build.status.isCancelable = true := by
      rw [Bool.and_eq_true, hTarget]
    unfold cancelBuildChange
    refine ⟨fun h => ?_, fun h => if_neg (mt hWritten.mp h)⟩
    rw [if_pos (hWritten.mpr h), Build.afterCancel, orElse_eq_some_getD]

/-- A cancellation reaches the identifiers of the pipelines that it finds. -/
theorem mem_cancelReach_iff {current : Pipeline} (hCurrent : current ∈ store.pipelines.rows)
    (cascade : Bool) {row : Pipeline} (hRow : row ∈ store.pipelines.rows) :
    row.id ∈ store.cancelReach current cascade ↔
      IsFoundBy store.pipelines.rows current.id cascade row := by
  cases cascade with
  | false => simp [cancelReach, IsFoundBy, hRow]
  | true =>
      have hRoots : ∀ root ∈ store.pipelines.rows, root ∈ [current] ↔ root.id = current.id := by
        intro root hRoot
        rw [List.mem_singleton]
        exact ⟨congrArg Pipeline.id, store.pipelines.eq_of_key_eq hRoot hCurrent⟩
      have hBase : ∀ root ∈ [current], root ∈ store.pipelines.rows := by
        intro root hRoot
        rwa [List.mem_singleton.mp hRoot]
      have hSame : Descends store.pipelines.rows (· ∈ [current]) row ↔
          Descends store.pipelines.rows (·.id = current.id) row :=
        ⟨.imp fun root hRoot => (hRoots root hRoot).mp,
          .imp fun root hRoot => (hRoots root hRoot).mpr⟩
      have hReach : row.id ∈ store.cancelReach current true ↔
          Descends store.pipelines.rows (·.id = current.id) row := by
        rw [cancelReach, if_pos rfl, List.mem_map, ← hSame,
          ← mem_withDescendants_iff store.pipelines.sorted hBase]
        constructor
        · rintro ⟨other, hOther, hId⟩
          have hMem := (withDescendants_sublist _ _).subset hOther
          rwa [← store.pipelines.eq_of_key_eq hMem hRow hId]
        · intro h
          exact ⟨row, h, rfl⟩
      rw [hReach, IsFoundBy]
      refine ⟨fun h => ⟨hRow, Or.inr ⟨rfl, h⟩⟩, fun h => ?_⟩
      rcases h.2 with hId | ⟨-, hDescends⟩
      · exact .root hRow hId
      · exact hDescends

/-! ## The order of the comparisons -/

/-- How a cancellation ends: which comparison fails first, or that none fails. -/
inductive CancelEnds (store : Store) (passed : Pipeline) (request : CancelRequest) :
    Except StoreError CancelOutcome × Store → Prop where
  | missing (hNone : ∀ row ∈ store.pipelines.rows, row.id ≠ passed.id) :
      CancelEnds store passed request (.error (.notFound .pipeline passed.id), store)
  | settled {row : Pipeline} (hRow : row ∈ store.pipelines.rows) (hId : row.id = passed.id)
      (hStatus : row.status.isCancelable = false) :
      CancelEnds store passed request (.ok (.alreadyResolved row.status), store)
  | stale {row : Pipeline} (hRow : row ∈ store.pipelines.rows) (hId : row.id = passed.id)
      (hStatus : row.status.isCancelable = true) (hVersion : row.lockVersion ≠ passed.lockVersion) :
      CancelEnds store passed request
        (.error (.staleObject passed.id passed.lockVersion row.lockVersion), store)
  | canceled {row : Pipeline} (hRow : row ∈ store.pipelines.rows) (hId : row.id = passed.id)
      (hStatus : row.status.isCancelable = true) (hVersion : row.lockVersion = passed.lockVersion) :
      CancelEnds store passed request
        (.ok .canceled, store.cancelRows (store.cancelReach row request.cascade)
          request.canceledById)

theorem cancelEnds_cancelRunning (store : Store) (passed : Pipeline) (request : CancelRequest) :
    CancelEnds store passed request (store.cancelRunning passed request) := by
  unfold cancelRunning
  cases hFound : store.pipelines.find? passed.id with
  | none => exact .missing ((store.pipelines.find?_eq_none_iff _).mp hFound)
  | some row =>
      obtain ⟨hRow, hId⟩ := (store.pipelines.find?_eq_some_iff _ _).mp hFound
      cases hStatus : row.status.isCancelable with
      | false =>
          simp only [hStatus, Bool.not_false, if_true]
          exact .settled hRow hId hStatus
      | true =>
          simp only [hStatus, Bool.not_true, Bool.false_eq_true, if_false]
          by_cases hVersion : row.lockVersion = passed.lockVersion
          · rw [if_neg (not_not.mpr hVersion)]
            exact .canceled hRow hId hStatus hVersion
          · rw [if_pos hVersion]
            exact .stale hRow hId hStatus hVersion

/-! ## Cancellation in turn -/

/-- The identifiers of what descends from a pipeline, in the order of a walk, without its own. -/
def descendantIds (store : Store) (id : Nat) : List Nat :=
  ((walkQueue [] (store.queueOf (Query.all.idIn [id]))).map (·.val.id)).filter (· != id)

/-- Cancel a pipeline, then look its descendants up, and cancel them one after the other. -/
def cancelInTurn (store : Store) (id : Nat) (request : CancelRequest) : Store :=
  let first := store.cancelRows [id] request.canceledById
  if request.cascade then
    (first.descendantIds id).foldl
      (fun current next => current.cancelRows [next] request.canceledById) first
  else first

theorem foldl_cancelRows (ids : List Nat) (canceledById : Nat) (store : Store) :
    ids.foldl (fun current next => current.cancelRows [next] canceledById) store =
      store.cancelRows ids canceledById := by
  induction ids generalizing store with
  | nil => exact cancelRows_nil.symm
  | cons id rest ih => rw [List.foldl_cons, ih, cancelRows_cancelRows, List.singleton_append]

/-- Only which stored pipelines are named counts for a cancellation. -/
theorem cancelRows_congr {ids others : List Nat}
    (h : ∀ row ∈ store.pipelines.rows, row.id ∈ ids ↔ row.id ∈ others) (canceledById : Nat) :
    store.cancelRows ids canceledById = store.cancelRows others canceledById := by
  have hTarget (id : Nat) : store.isCancelTarget ids id = store.isCancelTarget others id := by
    unfold isCancelTarget
    cases hFound : store.pipelines.find? id with
    | none => simp
    | some row =>
        obtain ⟨hRow, rfl⟩ := (store.pipelines.find?_eq_some_iff _ _).mp hFound
        have hSame : ids.contains row.id = others.contains row.id := by
          rw [Bool.eq_iff_iff, List.contains_iff_mem, List.contains_iff_mem]
          exact h row hRow
        rw [hSame]
  refine Store.ext rfl rfl rfl (Table.ext ?_) (Table.ext ?_) rfl
  · rw [rows_pipelines_cancelRows, rows_pipelines_cancelRows]
    refine List.map_congr_left fun row _ => ?_
    rw [cancelChange, hTarget, cancelChange]
  · rw [rows_builds_cancelRows, rows_builds_cancelRows]
    refine List.map_congr_left fun build _ => ?_
    rw [cancelBuildChange, hTarget, cancelBuildChange]

theorem mem_evaluate_idIn_iff (id : Nat) (row : Pipeline) :
    row ∈ store.evaluate (Query.all.idIn [id]) ↔ row ∈ store.pipelines.rows ∧ row.id = id := by
  rw [mem_evaluate_iff store rfl]
  simp [Query.all, Query.ofScope, Query.idIn, Query.withCondition, scopeRows, meets,
    Condition.holds]

theorem mem_descendantIds_iff (store : Store) (id : Nat) (row : Pipeline)
    (hRow : row ∈ store.pipelines.rows) :
    row.id ∈ store.descendantIds id ↔
      row.id ≠ id ∧ Descends store.pipelines.rows (·.id = id) row := by
  have hRoots : ∀ root ∈ store.pipelines.rows,
      root ∈ (store.queueOf (Query.all.idIn [id])).map (·.val) ↔ root.id = id := by
    intro root hRoot
    rw [map_val_queueOf, mem_evaluate_idIn_iff]
    exact and_iff_right hRoot
  have hWalk : row.id ∈ (walkQueue [] (store.queueOf (Query.all.idIn [id]))).map (·.val.id) ↔
      Descends store.pipelines.rows (·.id = id) row := by
    rw [List.mem_map]
    constructor
    · rintro ⟨visited, hVisited, hId⟩
      rw [← store.pipelines.eq_of_key_eq visited.property hRow hId]
      exact ((mem_walkQueue_iff store.pipelines.sorted _ visited).mp hVisited).imp
        fun root hRoot => (hRoots root hRoot).mp
    · intro hDescends
      refine ⟨⟨row, hRow⟩, (mem_walkQueue_iff store.pipelines.sorted _ _).mpr ?_, rfl⟩
      exact hDescends.imp fun root hRoot => (hRoots root hRoot).mpr
  rw [descendantIds, List.mem_filter, hWalk, bne_iff_ne, and_comm]

/-- A cancellation leaves every descent as it is. -/
theorem descends_cancelRows_iff (ids : List Nat) (canceledById id : Nat) {row : Pipeline}
    (hRow : row ∈ store.pipelines.rows) :
    Descends (store.cancelRows ids canceledById).pipelines.rows (·.id = id)
        (store.cancelChange ids canceledById row) ↔
      Descends store.pipelines.rows (·.id = id) row := by
  have hField {β : Type} (field : Pipeline → β)
      (hKeeps : ∀ other, field (other.afterCancel canceledById) = field other) :=
    store.cancelChange_field ids canceledById field hKeeps
  rw [rows_pipelines_cancelRows, descends_map_iff (hField (·.id) fun _ => rfl)
    (hField (·.parentId) fun _ => rfl) (hField (·.projectId) fun _ => rfl)]
  · constructor
    · rintro ⟨other, hDescends, hSame⟩
      have hId := congrArg Pipeline.id hSame
      rw [cancelChange_id, cancelChange_id] at hId
      rwa [store.pipelines.eq_of_key_eq hRow hDescends.mem hId]
    · intro h
      exact ⟨row, h, rfl⟩
  · intro other
    rw [cancelChange_id]

/-- Canceling in turn ends with the same store as canceling all at once. -/
theorem cancelInTurn_eq {current : Pipeline} (hCurrent : current ∈ store.pipelines.rows)
    (request : CancelRequest) :
    store.cancelInTurn current.id request =
      store.cancelRows (store.cancelReach current request.cascade) request.canceledById := by
  obtain ⟨canceledById, cascade⟩ := request
  cases cascade with
  | false => rfl
  | true =>
      simp only [cancelInTurn, if_true]
      rw [foldl_cancelRows, cancelRows_cancelRows]
      refine cancelRows_congr (fun row hRow => ?_) canceledById
      -- The row as it is after the first cancellation is looked up there.
      have hLater : store.cancelChange [current.id] canceledById row ∈
          (store.cancelRows [current.id] canceledById).pipelines.rows :=
        List.mem_map_of_mem hRow
      have hDescends := mem_descendantIds_iff _ current.id _ hLater
      rw [cancelChange_id, descends_cancelRows_iff _ _ _ hRow] at hDescends
      rw [List.singleton_append, List.mem_cons, hDescends, mem_cancelReach_iff hCurrent true hRow]
      by_cases hId : row.id = current.id
      · simp [IsFoundBy, hId, hRow]
      · simp [IsFoundBy, hId, hRow]

/-- A cancellation is refused and writes nothing, or it cancels all that it should and nothing
else. -/
theorem cancelRunning_is_all_or_nothing (store : Store) (passed : Pipeline)
    (request : CancelRequest) (answer : Except StoreError CancelOutcome) (after : Store)
    (hCall : store.cancelRunning passed request = (answer, after)) :
    (answer = .error (.notFound .pipeline passed.id) ↔
      ∀ row ∈ store.pipelines.rows, row.id ≠ passed.id) ∧
    (∀ status, answer = .ok (.alreadyResolved status) ↔
      ∃ row ∈ store.pipelines.rows, row.id = passed.id ∧ row.status = status ∧
        status.isCancelable = false) ∧
    (∀ actual, answer = .error (.staleObject passed.id passed.lockVersion actual) ↔
      ∃ row ∈ store.pipelines.rows, row.id = passed.id ∧ row.status.isCancelable = true ∧
        row.lockVersion = actual ∧ actual ≠ passed.lockVersion) ∧
    (answer = .ok .canceled ↔
      ∃ row ∈ store.pipelines.rows, row.id = passed.id ∧ row.status.isCancelable = true ∧
        row.lockVersion = passed.lockVersion) ∧
    (answer ≠ .ok .canceled → after = store) ∧
    (answer = .ok .canceled →
      CancelEffect (IsWrittenBy store.pipelines.rows passed.id request.cascade)
        request.canceledById store after ∧
      after = store.cancelInTurn passed.id request) := by
  have hEnds := store.cancelEnds_cancelRunning passed request
  rw [hCall] at hEnds
  -- The row of that identifier is one, so what it says is what any such row says.
  have hOnly {row other : Pipeline} (hRow : row ∈ store.pipelines.rows) (hId : row.id = passed.id)
      (hOther : other ∈ store.pipelines.rows) (hOtherId : other.id = passed.id) : other = row :=
    store.pipelines.eq_of_key_eq hOther hRow (hOtherId.trans hId.symm)
  cases hEnds with
  | missing hNone => grind
  | settled hRow hId hStatus => grind
  | stale hRow hId hStatus hVersion => grind
  | canceled hRow hId hStatus hVersion =>
      have hWrites := cancelEffect_cancelRows
        (fun row hMem => mem_cancelReach_iff hRow request.cascade hMem)
        (fun row hFound => hFound.1) request.canceledById
      rw [hId] at hWrites
      have hInTurn := (cancelInTurn_eq hRow request).symm
      rw [hId] at hInTurn
      refine ⟨?_, ?_, ?_, ?_, ?_, fun _ => ⟨hWrites, hInTurn⟩⟩ <;> grind

end Store

/-- Three pipelines in a ring of parent links.  The second one has succeeded, and the third
one is running although it has been marked on behalf of another pipeline. -/
def parentRing : Store :=
  Store.ofSnapshot { Snapshot.empty with
    pipelines := [
      { pushedPipeline 1 with parentId := some 3 },
      { pushedPipeline 2 with parentId := some 1, status := .success },
      { pushedPipeline 3 with parentId := some 2, autoCanceledById := some 8 }]
    builds := [⟨1, 1, "test", .running, true, none⟩, ⟨2, 2, "lint", .running, true, none⟩] }

/-- The cascade comes to the third pipeline through the second one, which it leaves as it is,
and back to the first one, whose version it has already raised. -/
theorem cancelRunning_is_all_or_nothing_parentRing :
    ∃ after, parentRing.cancelRunning (pushedPipeline 1) ⟨7, true⟩ = (.ok .canceled, after) ∧
      after.pipelines.rows.map (·.lockVersion) = [1, 0, 1] ∧
      after.pipelines.rows.map (·.autoCanceledById) = [some 7, none, some 8] ∧
      after.builds.rows.map (·.status) = [.canceled, .running] ∧
      CancelEffect (IsWrittenBy parentRing.pipelines.rows 1 true) 7 parentRing after ∧
      after = parentRing.cancelInTurn 1 ⟨7, true⟩ :=
  ⟨_, rfl, by decide, by decide, by decide,
    (Store.cancelRunning_is_all_or_nothing parentRing (pushedPipeline 1) ⟨7, true⟩ _ _
      rfl).2.2.2.2.2 rfl⟩

end PipelineUpkeep

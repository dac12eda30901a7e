import Mathlib.Data.List.Forall2
import PipelineUpkeep.Proofs.RunTargets
/-!
# Two runs in either order

Of two runs each may cancel the initiator of the other, and pipelines that the other one is
after.  Nevertheless their order decides nothing but who is named: the first run cancels its
targets, the second one what is left of its own, and the targets of both are canceled once in
either order, on behalf of whichever run came first.
-/

namespace PipelineUpkeep

open Time

/-! ## Equal but for attributions -/

/-- The rows are equal, or they are equal up to who canceled them, where that is open. -/
def Pipeline.SameUpTo (isOpen : Nat → Prop) (row other : Pipeline) : Prop :=
  row = other ∨
    (isOpen row.id ∧ { row with autoCanceledById := other.autoCanceledById } = other)

/-- The same for builds, by their pipeline. -/
def Build.SameUpTo (isOpen : Nat → Prop) (build other : Build) : Prop :=
  build = other ∨
    (isOpen build.pipelineId ∧ { build with autoCanceledById := other.autoCanceledById } = other)

/-- The stores hold the same rows in the same order, up to who canceled the open pipelines
and their builds. -/
structure Store.SameUpTo (isOpen : Nat → Prop) (store other : Store) : Prop where
  projects : store.projects = other.projects
  users : store.users = other.users
  refs : store.refs = other.refs
  schedules : store.schedules = other.schedules
  pipelines : List.Forall₂ (Pipeline.SameUpTo isOpen) store.pipelines.rows other.pipelines.rows
  builds : List.Forall₂ (Build.SameUpTo isOpen) store.builds.rows other.builds.rows

theorem Store.SameUpTo.imp {isOpen isWider : Nat → Prop} {store other : Store}
    (h : store.SameUpTo isOpen other) (hOpen : ∀ id, isOpen id → isWider id) :
    store.SameUpTo isWider other where
  projects := h.projects
  users := h.users
  refs := h.refs
  schedules := h.schedules
  pipelines := by
    refine h.pipelines.imp fun row other hRow => hRow.imp_right ?_
    exact fun ⟨hId, hRest⟩ => ⟨hOpen row.id hId, hRest⟩
  builds := by
    refine h.builds.imp fun build other hBuild => hBuild.imp_right ?_
    exact fun ⟨hId, hRest⟩ => ⟨hOpen build.pipelineId hId, hRest⟩

namespace Store

variable (store : Store) {ids others rest : List Nat} (first second : Nat)

section Rest

variable (hRest : ∀ id, id ∈ rest ↔ id ∈ others ∧ id ∉ ids)

include hRest

/-- What is left of a cancellation after another one. -/
theorem isCancelTarget_rest {id : Nat} (hFirst : store.isCancelTarget ids id = false) :
    store.isCancelTarget rest id = store.isCancelTarget others id := by
  unfold isCancelTarget at hFirst ⊢
  cases hStatus : (store.pipelines.find? id).any (·.status.isCancelable) with
  | false => simp
  | true =>
      rw [hStatus, Bool.and_true] at hFirst
      have hNot : id ∉ ids := by simpa using hFirst
      have hSame : id ∈ rest ↔ id ∈ others := by
        rw [hRest]
        exact and_iff_left hNot
      simp [hSame]

/-- A row of both cancellations is written by the first one. -/
theorem cancelChange_rest (row : Pipeline) :
    (store.cancelRows ids first).cancelChange rest second (store.cancelChange ids first row) =
      if store.isCancelTarget ids row.id then row.afterCancel first
      else if store.isCancelTarget others row.id then row.afterCancel second
      else row := by
  unfold cancelChange
  cases hFirst : store.isCancelTarget ids row.id with
  | true =>
      have hId : (row.afterCancel first).id = row.id := rfl
      simp [isCancelTarget_cancelRows, hId, hFirst]
  | false =>
      simp [isCancelTarget_cancelRows, hFirst, store.isCancelTarget_rest hRest hFirst]

theorem cancelBuildChange_rest (build : Build) :
    (store.cancelRows ids first).cancelBuildChange rest second
        (store.cancelBuildChange ids first build) =
      if store.isCancelTarget ids build.pipelineId && build.status.isCancelable then
        build.afterCancel first
      else if store.isCancelTarget others build.pipelineId && build.status.isCancelable then
        build.afterCancel second
      else build := by
  unfold cancelBuildChange
  cases hFirst : store.isCancelTarget ids build.pipelineId with
  | true =>
      cases hStatus : build.status.isCancelable with
      | true =>
          have hId : (build.afterCancel first).pipelineId = build.pipelineId := rfl
          simp [isCancelTarget_cancelRows, hId, hFirst]
      | false => simp [hStatus]
  | false =>
      simp [isCancelTarget_cancelRows, hFirst, store.isCancelTarget_rest hRest hFirst]

end Rest

/-- Two cancellations, of which each spares what the other one has canceled before, lead to
the same rows in either order. -/
theorem sameUpTo_cancelRows {restIds restOthers : List Nat}
    (hOthers : ∀ id, id ∈ restOthers ↔ id ∈ others ∧ id ∉ ids)
    (hIds : ∀ id, id ∈ restIds ↔ id ∈ ids ∧ id ∉ others) :
    ((store.cancelRows ids first).cancelRows restOthers second).SameUpTo
      (fun id => id ∈ ids ∧ id ∈ others)
      ((store.cancelRows others second).cancelRows restIds first) := by
  -- A row that both of them are after is open; every other one is written by one at most.
  have hOpen {id : Nat} (hFirst : store.isCancelTarget ids id = true)
      (hSecond : store.isCancelTarget others id = true) : id ∈ ids ∧ id ∈ others := by
    rw [isCancelTarget, Bool.and_eq_true, List.contains_iff_mem] at hFirst hSecond
    exact ⟨hFirst.1, hSecond.1⟩
  refine ⟨rfl, rfl, rfl, rfl, ?_, ?_⟩
  · simp only [rows_pipelines_cancelRows, List.map_map, List.forall₂_map_left_iff,
      List.forall₂_map_right_iff, List.forall₂_same, Function.comp_apply]
    intro row _
    rw [store.cancelChange_rest first second hOthers, store.cancelChange_rest second first hIds]
    cases hFirst : store.isCancelTarget ids row.id with
    | false => exact Or.inl (by simp)
    | true =>
        cases hSecond : store.isCancelTarget others row.id with
        | false => exact Or.inl (by simp)
        | true => exact Or.inr ⟨hOpen hFirst hSecond, rfl⟩
  · simp only [rows_builds_cancelRows, List.map_map, List.forall₂_map_left_iff,
      List.forall₂_map_right_iff, List.forall₂_same, Function.comp_apply]
    intro build _
    rw [store.cancelBuildChange_rest first second hOthers,
      store.cancelBuildChange_rest second first hIds]
    cases hStatus : build.status.isCancelable with
    | false => exact Or.inl (by simp)
    | true =>
        cases hFirst : store.isCancelTarget ids build.pipelineId with
        | false => exact Or.inl (by simp)
        | true =>
            cases hSecond : store.isCancelTarget others build.pipelineId with
            | false => exact Or.inl (by simp)
            | true => exact Or.inr ⟨hOpen hFirst hSecond, rfl⟩

end Store

/-! ## Runs -/

namespace TimedRun

/-- The pipeline is a candidate of both runs. -/
def BothConsider (run other : TimedRun) (store : Store) (id : Nat) : Prop :=
  ∃ row, run.Considers store row ∧ other.Considers store row ∧ row.id = id

theorem bothConsider_of_targets {run other : TimedRun} {store : Store} {id : Nat}
    (hRun : run.Targets store id) (hOther : other.Targets store id) :
    run.BothConsider other store id := by
  obtain ⟨row, hRow, hId, -⟩ := hRun
  obtain ⟨same, hSame, hSameId, -⟩ := hOther
  rw [store.pipelines.eq_of_key_eq hSame.mem hRow.mem (hSameId.trans hId.symm)] at hSame
  exact ⟨row, hRow, hSame, hId⟩

/-- A run after another one cancels what this has left of its targets. -/
theorem execute_after (run other : TimedRun) {world : World}
    (hQuiet : world.disturbance = .none)
    (hIds : ∀ row ∈ world.store.pipelines.rows, row.id < idBound) {start otherStart : Timestamp}
    (hWindow : run.clock.subSeconds? run.settings.lookback = some start)
    (hOther : other.clock.subSeconds? other.settings.lookback = some otherStart) :
    ∃ result ids rest, (other.execute (run.execute world).2).1 = .ok result ∧
      (other.execute (run.execute world).2).2.store =
        (world.store.cancelRows ids run.initiator.id).cancelRows rest other.initiator.id ∧
      (∀ id, id ∈ ids ↔ run.Targets world.store id) ∧
      ∀ id, id ∈ rest ↔ other.Targets world.store id ∧ id ∉ ids := by
  obtain ⟨-, ids, -, hStore, hStill, hTargets, -⟩ := run.execute_spec hQuiet hIds hWindow
  have hLater : ∀ row ∈ (run.execute world).2.store.pipelines.rows, row.id < idBound := by
    rw [hStore]
    exact Store.ids_cancelRows_lt hIds
  obtain ⟨result, rest, hResult, hEnd, -, hRest, -⟩ := other.execute_spec hStill hLater hOther
  refine ⟨result, ids, rest, hResult, ?_, hTargets, fun id => ?_⟩
  · rw [hEnd, hStore]
  · rw [hRest, hStore, targets_cancelRows_iff]

/-- Two runs, each at its own time, end in the same store in either order, up to who has
canceled the pipelines that both of them consider. -/
theorem execute_comm {p q : TimedRun} {world : World} (hQuiet : world.disturbance = .none)
    (hIds : ∀ row ∈ world.store.pipelines.rows, row.id < idBound) {pStart qStart : Timestamp}
    (hP : p.clock.subSeconds? p.settings.lookback = some pStart)
    (hQ : q.clock.subSeconds? q.settings.lookback = some qStart) :
    (∃ result, (q.execute (p.execute world).2).1 = .ok result) ∧
      (∃ result, (p.execute (q.execute world).2).1 = .ok result) ∧
      (q.execute (p.execute world).2).2.store.SameUpTo (p.BothConsider q world.store)
        (p.execute (q.execute world).2).2.store := by
  obtain ⟨qResult, ids, restOthers, hQResult, hQEnd, hPTargets, hRestOthers⟩ :=
    p.execute_after q hQuiet hIds hP hQ
  obtain ⟨pResult, others, restIds, hPResult, hPEnd, hQTargets, hRestIds⟩ :=
    q.execute_after p hQuiet hIds hQ hP
  refine ⟨⟨qResult, hQResult⟩, ⟨pResult, hPResult⟩, ?_⟩
  have hOthers (id : Nat) : id ∈ restOthers ↔ id ∈ others ∧ id ∉ ids := by
    rw [hRestOthers, hQTargets]
  have hFirst (id : Nat) : id ∈ restIds ↔ id ∈ ids ∧ id ∉ others := by
    rw [hRestIds, hPTargets]
  have hSame := world.store.sameUpTo_cancelRows p.initiator.id q.initiator.id hOthers hFirst
  rw [hQEnd, hPEnd]
  refine hSame.imp fun id hBoth => ?_
  exact bothConsider_of_targets ((hPTargets id).mp hBoth.1) ((hQTargets id).mp hBoth.2)

/-- The second and the third pipeline of the crowded ref consider each other. -/
theorem execute_comm_crowdedRef :
    (∃ result, ((ofPushed 3).execute
      ((ofPushed 2).execute (World.start crowdedRef ⟨0, 0⟩)).2).1 = .ok result) ∧
    (∃ result, ((ofPushed 2).execute
      ((ofPushed 3).execute (World.start crowdedRef ⟨0, 0⟩)).2).1 = .ok result) ∧
      ((ofPushed 3).execute
          ((ofPushed 2).execute (World.start crowdedRef ⟨0, 0⟩)).2).2.store.SameUpTo
        ((ofPushed 2).BothConsider (ofPushed 3) crowdedRef)
        ((ofPushed 2).execute
          ((ofPushed 3).execute (World.start crowdedRef ⟨0, 0⟩)).2).2.store :=
  execute_comm (p := ofPushed 2) (q := ofPushed 3) rfl
    (by decide : ∀ row ∈ crowdedRef.pipelines.rows, row.id < idBound) rfl rfl

end TimedRun

end PipelineUpkeep

import PipelineUpkeep.Proofs.ConcurrentRuns
import PipelineUpkeep.Proofs.RunEffect
/-!
# What one run leaves to another

The targets of a run are its candidates that no build blocks.  Without other writers a run
cancels its targets as they are at its start, and reports them, whatever its batch size is.

A cancellation takes the pipelines that it names away from the targets of every run and
leaves the other targets as they are: it writes no field by which other pipelines are
selected, so nothing comes into reach by it, and nothing that was blocked comes free.
-/

namespace PipelineUpkeep

open Time

namespace Store

variable {store : Store} {ids : List Nat} {canceledById : Nat}

/-- What may still be canceled after a cancellation is none of the pipelines that it
names. -/
theorem id_not_mem_of_mem_cancelRows {row : Pipeline}
    (hRow : row ∈ (store.cancelRows ids canceledById).pipelines.rows)
    (hStatus : row.status.isCancelable = true) : row.id ∉ ids := by
  intro hId
  rw [rows_pipelines_cancelRows] at hRow
  obtain ⟨other, hOther, rfl⟩ := List.mem_map.mp hRow
  rw [cancelChange_id] at hId
  unfold cancelChange at hStatus
  rw [isCancelTarget_of_mem hOther, List.contains_iff_mem.mpr hId, Bool.true_and] at hStatus
  split at hStatus
  · cases hStatus
  · rename_i hSettled
    exact hSettled hStatus

theorem ids_cancelRows_lt {bound : Nat} (h : ∀ row ∈ store.pipelines.rows, row.id < bound) :
    ∀ row ∈ (store.cancelRows ids canceledById).pipelines.rows, row.id < bound := by
  intro row hRow
  rw [rows_pipelines_cancelRows] at hRow
  obtain ⟨other, hOther, rfl⟩ := List.mem_map.mp hRow
  rw [cancelChange_id]
  exact h other hOther

end Store

/-- A run, and the time that its clock shows. -/
structure TimedRun extends CancellationRun where
  clock : Timestamp

namespace TimedRun

/-- The run in a world, at its own time. -/
def execute (run : TimedRun) (world : World) :
    Except Fault (Except UpkeepError CancellationReport) × World :=
  (cancelRedundant run.rules run.settings run.initiator).run { world with clock := run.clock }

/-- The initiator makes `row` redundant at the time of the run, and its project cancels. -/
def Considers (run : TimedRun) (store : Store) (row : Pipeline) : Prop :=
  run.initiator.parentId = none ∧ ∃ windowStart project,
    run.clock.subSeconds? run.settings.lookback = some windowStart ∧
    store.projects.find? run.initiator.projectId = some project ∧
    run.rules.autoCancel project = true ∧
    IsCandidate store (Strategy.ofPolicy (run.rules.resolve project)) run.initiator windowStart row

/-- The pipeline is one that the run cancels. -/
def Targets (run : TimedRun) (store : Store) (id : Nat) : Prop :=
  ∃ row, run.Considers store row ∧ row.id = id ∧ ¬ store.HasBlockingBuild id

variable {run : TimedRun} {store : Store}

theorem Considers.isCancelable {row : Pipeline} (h : run.Considers store row) :
    row.status.isCancelable = true := by
  obtain ⟨-, _, _, -, -, -, hCandidate⟩ := h
  exact hCandidate.1

theorem Considers.mem {row : Pipeline} (h : run.Considers store row) :
    row ∈ store.pipelines.rows := by
  obtain ⟨-, _, _, -, -, -, hCandidate⟩ := h
  exact hCandidate.mem

theorem considers_cancelRows_iff {ids : List Nat} {canceledById : Nat} {row : Pipeline}
    (hRow : row.id ∉ ids) :
    run.Considers (store.cancelRows ids canceledById) row ↔ run.Considers store row := by
  unfold Considers
  simp only [isCandidate_cancelRows_iff _ hRow]
  exact Iff.rfl

/-- A cancellation takes away the targets that it names, and only these. -/
theorem targets_cancelRows_iff {ids : List Nat} {canceledById : Nat} (id : Nat) :
    run.Targets (store.cancelRows ids canceledById) id ↔ run.Targets store id ∧ id ∉ ids := by
  constructor
  · rintro ⟨row, hRow, rfl, hFree⟩
    have hNot : row.id ∉ ids := Store.id_not_mem_of_mem_cancelRows hRow.mem hRow.isCancelable
    rw [← Store.isBlocked_eq_false_iff, Store.isBlocked_cancelRows_of_not_mem hNot,
      Store.isBlocked_eq_false_iff] at hFree
    exact ⟨⟨row, (considers_cancelRows_iff hNot).mp hRow, rfl, hFree⟩, hNot⟩
  · rintro ⟨⟨row, hRow, rfl, hFree⟩, hNot⟩
    refine ⟨row, (considers_cancelRows_iff hNot).mpr hRow, rfl, ?_⟩
    rw [← Store.isBlocked_eq_false_iff, Store.isBlocked_cancelRows_of_not_mem hNot,
      Store.isBlocked_eq_false_iff]
    exact hFree

/-- A stored initiator is no target of its own run. -/
theorem not_targets_initiator (hStored : run.initiator ∈ store.pipelines.rows) :
    ¬ run.Targets store run.initiator.id := by
  rintro ⟨row, hRow, hId, -⟩
  obtain rfl := store.pipelines.eq_of_key_eq hRow.mem hStored hId
  obtain ⟨hParent, _, project, -, -, -, hCandidate⟩ := hRow
  cases hKind : Strategy.ofPolicy (run.rules.resolve project) with
  | flat =>
      rw [hKind] at hCandidate
      obtain ⟨-, -, -, hOther, -⟩ := hCandidate
      exact hOther rfl
  | hierarchy =>
      rw [hKind] at hCandidate
      have hRoot := Descends.isRoot_of_parentId hCandidate.2 hParent
      exact Timestamp.lt_irrefl _ hRoot.2.1

/-- Alone with the store, a run cancels its targets and reports them. -/
theorem returns_targets (run : TimedRun)
    (hIds : ∀ row ∈ store.pipelines.rows, row.id < idBound) {windowStart : Timestamp}
    (hWindow : run.clock.subSeconds? run.settings.lookback = some windowStart) :
    ∃ result ids, Program.Returns run.clock
        (cancelRedundant run.rules run.settings run.initiator) store result
        (store.cancelRows ids run.initiator.id) ∧
      (∀ id, id ∈ ids ↔ run.Targets store id) ∧
      ((∃ report, result = .ok report ∧ ∀ id, id ∈ report.summary.canceled.toList ↔ id ∈ ids) ∨
        store.projects.find? run.initiator.projectId = none) := by
  by_cases hRuns : ∃ project, run.initiator.parentId = none ∧
      store.projects.find? run.initiator.projectId = some project ∧
      run.rules.autoCancel project = true
  · obtain ⟨project, hParent, hProject, hAuto⟩ := hRuns
    have hReturns := cancelRedundant_returns run.settings hIds hParent hProject hAuto hWindow rfl
    have hCanceled (id : Nat) : id ∈ store.idsBlocked false
        (candidateRows store (Strategy.ofPolicy (run.rules.resolve project)) run.initiator
          windowStart) ↔ run.Targets store id := by
      rw [mem_idsBlocked_candidateRows_iff]
      simp only [Store.isBlocked_eq_false_iff]
      constructor
      · rintro ⟨row, hCandidate, hRest⟩
        exact ⟨row, ⟨hParent, windowStart, project, hWindow, hProject, hAuto, hCandidate⟩, hRest⟩
      · rintro ⟨row, ⟨-, start, other, hStart, hOther, -, hCandidate⟩, hRest⟩
        obtain rfl := Option.some.inj (hWindow.symm.trans hStart)
        obtain rfl := Option.some.inj (hProject.symm.trans hOther)
        exact ⟨row, hCandidate, hRest⟩
    refine ⟨_, _, hReturns, hCanceled, Or.inl ⟨_, rfl, fun id => ?_⟩⟩
    exact (IdSet.mem_toList_insertAll_iff _ _ id).trans (or_iff_left List.not_mem_nil)
  · have hIdle (project : Project) (hParent : run.initiator.parentId = none)
        (hProject : store.projects.find? run.initiator.projectId = some project) :
        run.rules.autoCancel project = false := by
      by_contra hAuto
      exact hRuns ⟨project, hParent, hProject, by simpa using hAuto⟩
    obtain ⟨result, hReturns, hReport⟩ := cancelRedundant_returns_idle run.settings hIdle
    refine ⟨result, [], ?_, fun id => ⟨fun hNone => absurd hNone List.not_mem_nil, ?_⟩, ?_⟩
    · rw [Store.cancelRows_nil]
      exact hReturns
    · rintro ⟨row, ⟨hParent, _, project, -, hProject, hAuto, -⟩, -⟩
      exact absurd ⟨project, hParent, hProject, hAuto⟩ hRuns
    · refine hReport.imp_left ?_
      rintro ⟨report, hOk, hSummary⟩
      refine ⟨report, hOk, fun id => ?_⟩
      rw [hSummary]
      exact Iff.rfl

/-- The same of a run in a world that nobody disturbs; the world stays so. -/
theorem execute_spec (run : TimedRun) {world : World} (hQuiet : world.disturbance = .none)
    (hIds : ∀ row ∈ world.store.pipelines.rows, row.id < idBound) {windowStart : Timestamp}
    (hWindow : run.clock.subSeconds? run.settings.lookback = some windowStart) :
    ∃ result ids, (run.execute world).1 = .ok result ∧
      (run.execute world).2.store = world.store.cancelRows ids run.initiator.id ∧
      (run.execute world).2.disturbance = .none ∧
      (∀ id, id ∈ ids ↔ run.Targets world.store id) ∧
      ((∃ report, result = .ok report ∧ ∀ id, id ∈ report.summary.canceled.toList ↔ id ∈ ids) ∨
        world.store.projects.find? run.initiator.projectId = none) := by
  obtain ⟨result, ids, hReturns, hTargets, hReport⟩ := run.returns_targets hIds hWindow
  obtain ⟨ending, hRun, hEnding⟩ := hReturns { world with clock := run.clock } ⟨rfl, rfl, hQuiet⟩
  have hExecute : run.execute world = (.ok result, ending) := hRun
  rw [hExecute]
  exact ⟨result, ids, rfl, hEnding.store_eq, hEnding.undisturbed, hTargets, hReport⟩

/-- The run of a pipeline of the crowded ref, with the flat strategy. -/
def ofPushed (id : Nat) : TimedRun where
  rules := .fixed ⟨true, false⟩
  settings := .standard
  initiator := pushedPipeline id
  clock := ⟨604800, 0⟩

end TimedRun

end PipelineUpkeep

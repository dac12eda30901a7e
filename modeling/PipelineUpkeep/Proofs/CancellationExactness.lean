import Mathlib.Data.Set.Card
import PipelineUpkeep.Cancellation.Run
import PipelineUpkeep.Proofs.CandidatePages
/-!
# A run cancels exactly what it should

Without other writers, a cancellation run completes at its first attempt.  It cancels
the candidates that no build blocks, notes the others, and finds none that had
finished before; its batches are the candidates cut into pieces of the batch size.
The candidates are those at the start of the run, whatever the run cancels on its way.
-/

namespace PipelineUpkeep

open Time

/-- Increasing identifiers below a bound are no more than the bound. -/
theorem length_le_of_pairwise_lt {rows : List Pipeline} {bound : Nat}
    (hSorted : rows.Pairwise (·.id < ·.id)) (hBound : ∀ row ∈ rows, row.id < bound) :
    rows.length ≤ bound := by
  have hIds : (rows.map (·.id)).Pairwise (· < ·) := List.pairwise_map.mpr hSorted
  have hNodup : (rows.map (·.id)).Nodup := hIds.imp fun h => Nat.ne_of_lt h
  have hSubset : rows.map (·.id) ⊆ List.range bound := by
    intro id hId
    obtain ⟨row, hRow, rfl⟩ := List.mem_map.mp hId
    exact List.mem_range.mpr (hBound row hRow)
  have hLength := (hNodup.subperm hSubset).length_le
  rw [List.length_map, List.length_range] at hLength
  exact hLength

section Returns

variable {clock : Timestamp} {store : Store} {strategy : Strategy} {pipeline : Pipeline}
  {windowStart : Timestamp}

/-- The candidates as one pass finds them. -/
def candidateRows (store : Store) (strategy : Strategy) (pipeline : Pipeline)
    (windowStart : Timestamp) : List Pipeline :=
  store.evaluate (candidateQuery strategy pipeline windowStart (headSha? store pipeline))

theorem mem_candidateRows_iff (row : Pipeline) :
    row ∈ candidateRows store strategy pipeline windowStart ↔
      IsCandidate store strategy pipeline windowStart row :=
  mem_evaluate_candidateQuery_iff strategy row

theorem pairwise_candidateRows :
    (candidateRows store strategy pipeline windowStart).Pairwise (·.id < ·.id) :=
  store.evaluate_pairwise_lt _

theorem mem_idsBlocked_candidateRows_iff (blocked : Bool) (id : Nat) :
    id ∈ store.idsBlocked blocked (candidateRows store strategy pipeline windowStart) ↔
      ∃ row, IsCandidate store strategy pipeline windowStart row ∧ row.id = id ∧
        store.isBlocked id = blocked := by
  rw [Store.mem_idsBlocked_iff]
  constructor
  · rintro ⟨row, hRow, rfl, hBlocked⟩
    exact ⟨row, (mem_candidateRows_iff row).mp hRow, rfl, hBlocked⟩
  · rintro ⟨row, hRow, rfl, hBlocked⟩
    exact ⟨row, (mem_candidateRows_iff row).mpr hRow, rfl, hBlocked⟩

/-- One pass visits all candidates. -/
theorem PassContext.runPass_returns (context : PassContext)
    (hIds : ∀ row ∈ store.pipelines.rows, row.id < idBound) (summary : CancellationSummary) :
    Program.Returns clock
      (context.runPass
        (candidateQuery strategy pipeline windowStart (headSha? store pipeline)) summary)
      store
      (.ok (), summary.afterPages store (candidateRows store strategy pipeline windowStart)
        context.batchLimit)
      (store.cancelRows (store.idsBlocked false (candidateRows store strategy pipeline windowStart))
        context.initiator.id) := by
  have hAll : store.rowsAfter
      (candidateQuery strategy pipeline windowStart (headSha? store pipeline)) none =
        candidateRows store strategy pipeline windowStart :=
    store.rowsAfter_none _
  have hLength : (candidateRows store strategy pipeline windowStart).length ≤ idBound :=
    length_le_of_pairwise_lt pairwise_candidateRows fun row hRow =>
      hIds row ((mem_candidateRows_iff row).mp hRow).mem
  exact context.runBatches_returns rfl hAll (Nat.lt_succ_of_le hLength) summary

/-- An operation without a conflict is not run again. -/
theorem OptimisticLock.retry_returns {α σ : Type} (lock : OptimisticLock)
    {operation : Nat → σ → Program (Except StoreError α × σ)} {state final : σ} {value : α}
    {after : Store} (h : Program.Returns clock (operation 1 state) store (.ok value, final) after) :
    Program.Returns clock (lock.retry operation state) store (.ok (value, 1), final) after := by
  unfold retry
  cases lock.attemptLimit - 1 with
  | zero =>
      unfold retryFrom
      exact h.bind (Program.returns_pure _ _)
  | succ remaining =>
      unfold retryFrom
      exact h.bind (Program.returns_pure _ _)

theorem cancelCandidates_returns (settings : CancellationSettings) (context : PassContext)
    (hIds : ∀ row ∈ store.pipelines.rows, row.id < idBound) :
    Program.Returns clock
      (cancelCandidates settings context
        (candidateQuery strategy pipeline windowStart (headSha? store pipeline)))
      store
      (.ok (), (CancellationSummary.empty.startPass 1).afterPages store
        (candidateRows store strategy pipeline windowStart) context.batchLimit)
      (store.cancelRows (store.idsBlocked false (candidateRows store strategy pipeline windowStart))
        context.initiator.id) := by
  unfold cancelCandidates
  rw [if_neg (by rw [isEmptyScope_candidateQuery]; exact Bool.false_ne_true)]
  exact Program.Returns.bind (settings.lock.retry_returns (context.runPass_returns hIds _))
    (Program.returns_pure _ _)

theorem selectCandidates_returns {policy : Policy} {lookback : Int}
    (hParent : pipeline.parentId = none) (hPolicy : policy.autoCancelPendingPipelines = true)
    (hWindow : clock.subSeconds? lookback = some windowStart) :
    Program.Returns clock (selectCandidates pipeline policy lookback clock) store
      (.ok (candidateQuery (Strategy.ofPolicy policy) pipeline windowStart
        (headSha? store pipeline))) store := by
  have hHead := Program.returns_callStore clock .engine
    (.refHead pipeline.projectId pipeline.ref) store
  have hNotChild : pipeline.isChild = false := pipeline.isChild_eq_false_iff.mpr hParent
  unfold selectCandidates
  rw [if_neg (by rw [hNotChild]; exact Bool.false_ne_true), if_neg (by simp [hPolicy])]
  refine hHead.bind ?_
  simp only [hWindow]
  exact Program.returns_pure _ _

theorem reportRun_returns (summary : CancellationSummary) :
    Program.Returns clock (reportRun pipeline strategy (.ok (), summary)) store
      (.ok ⟨pipeline.id, .completed, some strategy, summary⟩) store := by
  unfold reportRun
  by_cases hCount : summary.canceled.toList.length > 0
  · simp only [hCount, if_true]
    exact (Program.returns_info _ _).bind (Program.returns_pure _ _)
  · simp only [hCount, if_false]
    exact Program.returns_pure _ _

/-- What a run reports and leaves, by the candidates at its start. -/
theorem cancelRedundant_returns {rules : PolicyRules} (settings : CancellationSettings)
    {project : Project} (hIds : ∀ row ∈ store.pipelines.rows, row.id < idBound)
    (hParent : pipeline.parentId = none)
    (hProject : store.projects.find? pipeline.projectId = some project)
    (hAuto : rules.autoCancel project = true)
    (hWindow : clock.subSeconds? settings.lookback = some windowStart)
    (hStrategy : strategy = Strategy.ofPolicy (rules.resolve project)) :
    Program.Returns clock (cancelRedundant rules settings pipeline) store
      (.ok ⟨pipeline.id, .completed, some strategy,
        (CancellationSummary.empty.startPass 1).afterPages store
          (candidateRows store strategy pipeline windowStart) (max 1 settings.batchSize)⟩)
      (store.cancelRows (store.idsBlocked false (candidateRows store strategy pipeline windowStart))
        pipeline.id) := by
  have hFind := Program.returns_callStore clock .engine (.project pipeline.projectId) store
  simp only [StoreCall.perform, hProject] at hFind
  have hNotChild : pipeline.isChild = false := pipeline.isChild_eq_false_iff.mpr hParent
  have hPolicy : (rules.resolve project).autoCancelPendingPipelines = true := hAuto
  have hSelect : Program.Returns clock
      (selectCandidates pipeline (rules.resolve project) settings.lookback clock) store
      (.ok (candidateQuery strategy pipeline windowStart (headSha? store pipeline))) store := by
    rw [hStrategy]
    exact selectCandidates_returns hParent hPolicy hWindow
  unfold cancelRedundant
  rw [if_neg (by rw [hNotChild]; exact Bool.false_ne_true)]
  refine hFind.bind ?_
  simp only [hPolicy, Bool.not_true, Bool.false_eq_true, if_false]
  refine (Program.returns_readClock _).bind (hSelect.bind ?_)
  refine (cancelCandidates_returns settings _ hIds).bind ?_
  rw [← hStrategy]
  exact reportRun_returns _

end Returns

/-- How many stored pipelines are candidates. -/
noncomputable def candidateCount (store : Store) (strategy : Strategy) (pipeline : Pipeline)
    (windowStart : Timestamp) : Nat :=
  {row | IsCandidate store strategy pipeline windowStart row}.ncard

theorem length_candidateRows (store : Store) (strategy : Strategy) (pipeline : Pipeline)
    (windowStart : Timestamp) :
    (candidateRows store strategy pipeline windowStart).length =
      candidateCount store strategy pipeline windowStart := by
  classical
  have hNodup : (candidateRows store strategy pipeline windowStart).Nodup :=
    pairwise_candidateRows.imp fun {a b} hLt hSame => by
      rw [hSame] at hLt
      exact Nat.lt_irrefl _ hLt
  have hSet : {row | IsCandidate store strategy pipeline windowStart row} =
      ((candidateRows store strategy pipeline windowStart).toFinset : Set Pipeline) := by
    ext row
    rw [Set.mem_ofPred_eq, List.coe_toFinset, Set.mem_ofPred_eq, mem_candidateRows_iff]
  rw [candidateCount, hSet, Set.ncard_coe_finset, List.toFinset_card_of_nodup hNodup]

/-- The summary of a run that met every candidate once, and wrote each as its builds
allow, in batches of at most `limit`. -/
structure CancellationSummary.IsExact (summary : CancellationSummary) (store : Store)
    (strategy : Strategy) (pipeline : Pipeline) (windowStart : Timestamp) (limit : Nat) :
    Prop where
  canceled : ∀ id, id ∈ summary.canceled.toList ↔
    ∃ row, IsCandidate store strategy pipeline windowStart row ∧ row.id = id ∧
      ¬ store.HasBlockingBuild id
  notInterruptible : ∀ id, id ∈ summary.notInterruptible.toList ↔
    ∃ row, IsCandidate store strategy pipeline windowStart row ∧ row.id = id ∧
      store.HasBlockingBuild id
  alreadyResolved : summary.alreadyResolved.toList = []
  attempts : summary.attempts = 1
  batches : summary.batches = candidateCount store strategy pipeline windowStart ⌈/⌉ limit
  largestBatch : summary.largestBatch =
    min (candidateCount store strategy pipeline windowStart) limit

theorem isExact_afterPages (store : Store) (strategy : Strategy) (pipeline : Pipeline)
    (windowStart : Timestamp) (limit : Nat) :
    ((CancellationSummary.empty.startPass 1).afterPages store
      (candidateRows store strategy pipeline windowStart) limit).IsExact
        store strategy pipeline windowStart limit where
  canceled id := by
    refine (IdSet.mem_toList_insertAll_iff _ _ id).trans ?_
    rw [mem_idsBlocked_candidateRows_iff]
    simp only [Store.isBlocked_eq_false_iff]
    exact or_iff_left List.not_mem_nil
  notInterruptible id := by
    refine (IdSet.mem_toList_insertAll_iff _ _ id).trans ?_
    rw [mem_idsBlocked_candidateRows_iff]
    simp only [Store.isBlocked_eq_true_iff]
    exact or_iff_left List.not_mem_nil
  alreadyResolved := rfl
  attempts := rfl
  batches := by
    rw [← length_candidateRows]
    exact Nat.zero_add _
  largestBatch := by
    rw [← length_candidateRows]
    exact Nat.zero_max _

/-- Without other writers, the run of a pipeline that has no parent, in a project that
cancels, completes with an exact summary of the store at its start. -/
theorem cancelRedundant_completes_exactly {rules : PolicyRules} {settings : CancellationSettings}
    {pipeline : Pipeline} {project : Project} {windowStart : Timestamp} {world : World}
    (hQuiet : world.disturbance = .none)
    (hIds : ∀ row ∈ world.store.pipelines.rows, row.id < idBound)
    (hParent : pipeline.parentId = none)
    (hProject : world.store.projects.find? pipeline.projectId = some project)
    (hAuto : rules.autoCancel project = true)
    (hWindow : world.clock.subSeconds? settings.lookback = some windowStart) :
    ∃ summary ending,
      (cancelRedundant rules settings pipeline).run world =
        (.ok (.ok ⟨pipeline.id, .completed, some (Strategy.ofPolicy (rules.resolve project)),
          summary⟩), ending) ∧
      summary.IsExact world.store (Strategy.ofPolicy (rules.resolve project)) pipeline
        windowStart (max 1 settings.batchSize) := by
  have hReturns := cancelRedundant_returns settings hIds hParent hProject hAuto hWindow rfl
  obtain ⟨ending, hRun, -⟩ := hReturns world ⟨rfl, rfl, hQuiet⟩
  exact ⟨_, ending, hRun, isExact_afterPages _ _ _ _ _⟩

theorem cancelRedundant_completes_exactly_crowdedRef :
    ∃ summary ending,
      (cancelRedundant (PolicyRules.fixed ⟨true, false⟩) .standard (pushedPipeline 3)).run
          (World.start crowdedRef ⟨604800, 0⟩) =
        (.ok (.ok ⟨3, .completed, some .flat, summary⟩), ending) ∧
      summary.IsExact crowdedRef .flat (pushedPipeline 3) ⟨0, 0⟩ 25 :=
  cancelRedundant_completes_exactly rfl (by decide) rfl
    (by rfl : crowdedRef.projects.find? 1 = some ⟨1, "group/app", true, none, []⟩) rfl rfl

end PipelineUpkeep

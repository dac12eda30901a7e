import PipelineUpkeep.Proofs.CancellationExactness
/-!
# What a run does to the store

When nobody else writes, the pipelines that a run moves to canceled are the candidates at
its start that no build blocks, and there are none where the project does not cancel.  Two
questions about these pipelines are settled here.

*Are they older than the initiator?*  Under the hierarchy strategy those without a parent
are.  The flat strategy does not ask when a pipeline was created, so it cancels a later one
wherever it finds one.

*Are they of another commit than the tip of the ref?*  Under the flat strategy they are.
The hierarchy strategy judges the commit of roots only, so a pipeline of the commit at the
tip is canceled if its parent is among the redundant pipelines or descends from one of
them, and only then.
-/

namespace PipelineUpkeep

open Time

/-- A pipeline from which the hierarchy strategy sets out. -/
def IsOlderRoot (store : Store) (pipeline : Pipeline) (windowStart : Timestamp)
    (root : Pipeline) : Prop :=
  SharesRef store pipeline windowStart root ∧ root.createdAt < pipeline.createdAt ∧
    root.source ∈ Source.ciSources

/-- The project of `pipeline` cancels, and `row` is a candidate that no build blocks. -/
def IsCanceledFor (store : Store) (rules : PolicyRules) (pipeline : Pipeline)
    (windowStart : Timestamp) (row : Pipeline) : Prop :=
  ∃ project, store.projects.find? pipeline.projectId = some project ∧
    rules.autoCancel project = true ∧
    IsCandidate store (Strategy.ofPolicy (rules.resolve project)) pipeline windowStart row ∧
    ¬ store.HasBlockingBuild row.id

/-- No pipeline without a parent that was created later than `pipeline` has been canceled. -/
def SparesLater (pipeline : Pipeline) (before after : Store) : Prop :=
  ∀ row ∈ before.pipelines.rows, row.parentId = none → before.Cancels after row.id →
    ¬ pipeline.createdAt < row.createdAt

/-- The project of `pipeline` cancels with the flat strategy, and a candidate that no build
blocks was created later than `pipeline`. -/
def HasLaterCandidate (store : Store) (rules : PolicyRules) (pipeline : Pipeline)
    (windowStart : Timestamp) : Prop :=
  ∃ project, store.projects.find? pipeline.projectId = some project ∧
    rules.autoCancel project = true ∧ rules.hierarchy project = false ∧
    ∃ row, IsCandidate store .flat pipeline windowStart row ∧ ¬ store.HasBlockingBuild row.id ∧
      pipeline.createdAt < row.createdAt

section Effect

variable {rules : PolicyRules} {settings : CancellationSettings} {pipeline : Pipeline}
  {windowStart : Timestamp}

/-- Where the pipeline has a parent, or its project is missing or does not cancel, nothing is
written. -/
theorem cancelRedundant_returns_idle (settings : CancellationSettings) {clock : Timestamp}
    {store : Store}
    (hIdle : ∀ project, pipeline.parentId = none →
      store.projects.find? pipeline.projectId = some project → rules.autoCancel project = false) :
    ∃ result, Program.Returns clock (cancelRedundant rules settings pipeline) store result store ∧
      ((∃ report, result = .ok report ∧ report.summary = .empty) ∨
        store.projects.find? pipeline.projectId = none) := by
  have hFind := Program.returns_callStore clock .engine (.project pipeline.projectId) store
  simp only [StoreCall.perform] at hFind
  unfold cancelRedundant
  split
  · exact ⟨_, Program.returns_pure _ _, Or.inl ⟨_, rfl, rfl⟩⟩
  · rename_i hChild
    have hParent : pipeline.parentId = none :=
      pipeline.isChild_eq_false_iff.mp (Bool.eq_false_iff.mpr hChild)
    cases hProject : store.projects.find? pipeline.projectId with
    | none =>
        rw [hProject] at hFind
        exact ⟨_, hFind.bind (Program.returns_pure _ _), Or.inr rfl⟩
    | some project =>
        rw [hProject] at hFind
        have hAuto : (rules.resolve project).autoCancelPendingPipelines = false :=
          hIdle project hParent hProject
        refine ⟨.ok (.ofSkip pipeline.id .autoCancelDisabled), hFind.bind ?_,
          Or.inl ⟨_, rfl, rfl⟩⟩
        simp only [hAuto, Bool.not_false, if_true]
        exact Program.returns_pure _ _

/-- A run moves exactly those pipelines to canceled. -/
theorem cancelRedundant_cancels_iff (rules : PolicyRules) {world : World}
    (hQuiet : world.disturbance = .none)
    (hIds : ∀ row ∈ world.store.pipelines.rows, row.id < idBound)
    (hParent : pipeline.parentId = none)
    (hWindow : world.clock.subSeconds? settings.lookback = some windowStart) :
    ∃ result ending, (cancelRedundant rules settings pipeline).run world = (.ok result, ending) ∧
      ∀ row ∈ world.store.pipelines.rows, world.store.Cancels ending.store row.id ↔
        IsCanceledFor world.store rules pipeline windowStart row := by
  by_cases hRuns : ∃ project, world.store.projects.find? pipeline.projectId = some project ∧
      rules.autoCancel project = true
  · obtain ⟨project, hProject, hAuto⟩ := hRuns
    have hReturns := cancelRedundant_returns settings hIds hParent hProject hAuto hWindow rfl
    obtain ⟨ending, hRun, hEnding⟩ := hReturns world ⟨rfl, rfl, hQuiet⟩
    refine ⟨_, ending, hRun, fun row hRow => ?_⟩
    rw [hEnding.store_eq, Store.cancels_cancelRows_iff, mem_idsBlocked_candidateRows_iff]
    simp only [Store.isBlocked_eq_false_iff]
    constructor
    · rintro ⟨⟨found, hCandidate, hId, hFree⟩, -⟩
      obtain rfl := world.store.pipelines.eq_of_key_eq hCandidate.mem hRow hId
      exact ⟨project, hProject, hAuto, hCandidate, hFree⟩
    · rintro ⟨other, hOther, -, hCandidate, hFree⟩
      obtain rfl := Option.some.inj (hProject.symm.trans hOther)
      exact ⟨⟨row, hCandidate, rfl, hFree⟩, row, hRow, rfl, hCandidate.1⟩
  · have hIdle : ∀ project, world.store.projects.find? pipeline.projectId = some project →
        rules.autoCancel project = false := fun project hProject => by
      by_contra hAuto
      exact hRuns ⟨project, hProject, by simpa using hAuto⟩
    obtain ⟨result, hReturns, -⟩ :=
      cancelRedundant_returns_idle settings fun project _ hProject => hIdle project hProject
    obtain ⟨ending, hRun, hEnding⟩ := hReturns world ⟨rfl, rfl, hQuiet⟩
    refine ⟨result, ending, hRun, fun row _ => ⟨fun hCancels => ?_, ?_⟩⟩
    · rw [hEnding.store_eq] at hCancels
      exact absurd hCancels (Store.not_cancels_of_kept (fun _ hRow => hRow) _)
    · rintro ⟨project, hProject, hAuto, -⟩
      exact absurd ⟨project, hProject, hAuto⟩ hRuns

/-- A run cancels no later pipeline without a parent, unless it is flat and one of its
candidates is such a pipeline. -/
theorem no_later_pipeline_canceled_iff {world : World} (hQuiet : world.disturbance = .none)
    (hIds : ∀ row ∈ world.store.pipelines.rows, row.id < idBound)
    (hParent : pipeline.parentId = none)
    (hWindow : world.clock.subSeconds? settings.lookback = some windowStart) :
    ∃ result ending, (cancelRedundant rules settings pipeline).run world = (.ok result, ending) ∧
      (SparesLater pipeline world.store ending.store ↔
        ¬ HasLaterCandidate world.store rules pipeline windowStart) := by
  obtain ⟨result, ending, hRun, hEffect⟩ :=
    cancelRedundant_cancels_iff rules hQuiet hIds hParent hWindow
  refine ⟨result, ending, hRun, fun hSpares => ?_, fun hNone row hRow hNoParent hCancels => ?_⟩
  · rintro ⟨project, hProject, hAuto, hFlat, row, hCandidate, hFree, hLater⟩
    have hCanceled : IsCanceledFor world.store rules pipeline windowStart row := by
      refine ⟨project, hProject, hAuto, ?_, hFree⟩
      rw [Strategy.ofPolicy_resolve_flat hFlat]
      exact hCandidate
    obtain ⟨-, hRow, -, -, -, hNoParent⟩ := hCandidate
    exact hSpares row hRow hNoParent ((hEffect row hRow).mpr hCanceled) hLater
  · obtain ⟨project, hProject, hAuto, hCandidate, hFree⟩ := (hEffect row hRow).mp hCancels
    intro hLater
    cases hKind : rules.hierarchy project with
    | false =>
        rw [Strategy.ofPolicy_resolve_flat hKind] at hCandidate
        exact hNone ⟨project, hProject, hAuto, hKind, row, hCandidate, hFree, hLater⟩
    | true =>
        rw [Strategy.ofPolicy_resolve_hierarchy hKind] at hCandidate
        have hRoot := Descends.isRoot_of_parentId hCandidate.2 hNoParent
        exact Timestamp.lt_irrefl _ (Timestamp.lt_trans hRoot.2.1 hLater)

theorem no_later_pipeline_canceled_iff_crowdedRef :
    ∃ result ending,
      (cancelRedundant (PolicyRules.fixed ⟨true, false⟩) .standard (pushedPipeline 3)).run
          (World.start crowdedRef ⟨604800, 0⟩) = (.ok result, ending) ∧
        (SparesLater (pushedPipeline 3) crowdedRef ending.store ↔
          ¬ HasLaterCandidate crowdedRef (.fixed ⟨true, false⟩) (pushedPipeline 3) ⟨0, 0⟩) :=
  no_later_pipeline_canceled_iff rfl (by decide) rfl rfl

/-- The second pipeline of the crowded ref cancels the third one. -/
theorem later_pipeline_canceled_crowdedRef :
    pushedPipeline 2 ∈ crowdedRef.pipelines.rows ∧ (pushedPipeline 2).parentId = none ∧
      ¬ SparesLater (pushedPipeline 2) crowdedRef
        ((cancelRedundant (PolicyRules.fixed ⟨true, false⟩) .standard (pushedPipeline 2)).run
          (World.start crowdedRef ⟨604800, 0⟩)).2.store := by
  refine ⟨by decide, rfl, fun hSpares => ?_⟩
  have hStored : pushedPipeline 3 ∈ crowdedRef.pipelines.rows := by decide
  refine hSpares (pushedPipeline 3) hStored rfl ?_ (by decide)
  exact ⟨pushedPipeline 3, hStored, rfl, by decide, (pushedPipeline 3).afterCancel 2,
    by decide +kernel, rfl, rfl⟩

/-- A pipeline of the commit at the tip of the ref is canceled as the child of a redundant
pipeline and in no other way: never under the flat strategy, and never as a root. -/
theorem pipeline_of_tip_canceled_iff {project : Project} {world : World}
    (hQuiet : world.disturbance = .none)
    (hIds : ∀ row ∈ world.store.pipelines.rows, row.id < idBound)
    (hParent : pipeline.parentId = none)
    (hProject : world.store.projects.find? pipeline.projectId = some project)
    (hAuto : rules.autoCancel project = true)
    (hWindow : world.clock.subSeconds? settings.lookback = some windowStart) :
    ∃ result ending, (cancelRedundant rules settings pipeline).run world = (.ok result, ending) ∧
      ∀ row ∈ world.store.pipelines.rows, row.projectId = pipeline.projectId →
        row.ref = pipeline.ref → headSha? world.store pipeline = some row.sha →
          (world.store.Cancels ending.store row.id ↔
            rules.hierarchy project = true ∧ row.status.isAliveOrScheduled = true ∧
              ¬ world.store.HasBlockingBuild row.id ∧
              ∃ parent, row.parentId = some parent.id ∧
                Descends world.store.pipelines.rows
                  (IsOlderRoot world.store pipeline windowStart) parent) := by
  obtain ⟨result, ending, hRun, hEffect⟩ :=
    cancelRedundant_cancels_iff rules hQuiet hIds hParent hWindow
  refine ⟨result, ending, hRun, fun row hRow hSameProject hRef hSha => ?_⟩
  rw [hEffect row hRow]
  constructor
  · rintro ⟨other, hOther, -, hCandidate, hFree⟩
    obtain rfl := Option.some.inj (hProject.symm.trans hOther)
    cases hKind : rules.hierarchy project with
    | false =>
        rw [Strategy.ofPolicy_resolve_flat hKind] at hCandidate
        obtain ⟨-, -, hShares, -⟩ := hCandidate
        exact absurd hSha ((fitsRef_headSha?_iff row).mpr hShares).notHead
    | true =>
        rw [Strategy.ofPolicy_resolve_hierarchy hKind] at hCandidate
        obtain ⟨hStatus, hDescends⟩ := hCandidate
        refine ⟨rfl, hStatus, hFree, ?_⟩
        cases hDescends with
        | root _ hRoot => exact absurd hSha ((fitsRef_headSha?_iff row).mpr hRoot.1).notHead
        | child hDescends _ hLink _ => exact ⟨_, hLink, hDescends⟩
  · rintro ⟨hKind, hStatus, hFree, parent, hLink, hDescends⟩
    refine ⟨project, hProject, hAuto, ?_, hFree⟩
    rw [Strategy.ofPolicy_resolve_hierarchy hKind]
    have hParentProject := hDescends.projectId_eq fun root hRoot => hRoot.1.project
    exact ⟨hStatus, .child hDescends hRow hLink (hSameProject.trans hParentProject.symm)⟩

theorem pipeline_of_tip_canceled_iff_familyRef :
    ∃ result ending,
      (cancelRedundant (PolicyRules.fixed ⟨true, true⟩) .standard (pushedPipeline 3)).run
          (World.start familyRef ⟨604800, 0⟩) = (.ok result, ending) ∧
        ∀ row ∈ familyRef.pipelines.rows, row.projectId = 1 → row.ref = "main" →
          headSha? familyRef (pushedPipeline 3) = some row.sha →
            (familyRef.Cancels ending.store row.id ↔
              (PolicyRules.fixed ⟨true, true⟩).hierarchy ⟨1, "group/app", true, none, []⟩ = true ∧
                row.status.isAliveOrScheduled = true ∧ ¬ familyRef.HasBlockingBuild row.id ∧
                ∃ parent, row.parentId = some parent.id ∧
                  Descends familyRef.pipelines.rows
                    (IsOlderRoot familyRef (pushedPipeline 3) ⟨0, 0⟩) parent) :=
  pipeline_of_tip_canceled_iff rfl
    (by decide : ∀ row ∈ familyRef.pipelines.rows, row.id < idBound) rfl
    (by rfl : familyRef.projects.find? 1 = some ⟨1, "group/app", true, none, []⟩) rfl rfl

/-- The newest pipeline of the family cancels the child of the oldest one, although this
child is of the same ref and of the commit at its tip. -/
theorem pipeline_of_tip_canceled_familyRef :
    pushedPipeline 3 ∈ familyRef.pipelines.rows ∧ (pushedPipeline 3).parentId = none ∧
      lateChild ∈ familyRef.pipelines.rows ∧
      lateChild.projectId = (pushedPipeline 3).projectId ∧
      lateChild.ref = (pushedPipeline 3).ref ∧
      headSha? familyRef (pushedPipeline 3) = some lateChild.sha ∧
      familyRef.Cancels
        ((cancelRedundant (PolicyRules.fixed ⟨true, true⟩) .standard (pushedPipeline 3)).run
          (World.start familyRef ⟨604800, 0⟩)).2.store lateChild.id := by
  have hStored : lateChild ∈ familyRef.pipelines.rows := by decide
  refine ⟨by decide, rfl, hStored, rfl, rfl, by decide, ?_⟩
  exact ⟨lateChild, hStored, rfl, by decide, lateChild.afterCancel 3, by decide +kernel, rfl, rfl⟩

end Effect

end PipelineUpkeep

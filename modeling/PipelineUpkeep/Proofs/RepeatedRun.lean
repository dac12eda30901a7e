import PipelineUpkeep.Proofs.RunTargets
/-!
# A run that is repeated

When nobody else writes, a second run for the same initiator finds nothing left to do.  Its
window starts no earlier than the one of the first run, so it looks for no pipeline that the
first one has not looked for, and what the first one has left was blocked and still is.
-/

namespace PipelineUpkeep

open Time

/-! ## Windows -/

namespace Time.Timestamp

/-- The starts of windows are ordered as the readings they are counted from. -/
theorem subSeconds?_mono {now later start laterStart : Timestamp} {seconds : Int}
    (hNow : now.subSeconds? seconds = some start)
    (hLater : later.subSeconds? seconds = some laterStart) (hOrder : now ≤ later)
    (hReading : now.IsReading) (hLaterReading : later.IsReading) : start ≤ laterStart := by
  rw [subSeconds?_of_isReading hReading] at hNow
  rw [subSeconds?_of_isReading hLaterReading] at hLater
  split at hNow
  · split at hLater
    · cases hNow
      cases hLater
      rw [le_iff_not_lt, lt_iff] at hOrder ⊢
      simp only
      omega
    · cases hLater
  · cases hNow

end Time.Timestamp

theorem SharesRef.of_later {store : Store} {pipeline row : Pipeline}
    {windowStart laterStart : Timestamp} (h : SharesRef store pipeline laterStart row)
    (hOrder : windowStart ≤ laterStart) : SharesRef store pipeline windowStart row :=
  ⟨h.project, h.ref, Timestamp.le_trans hOrder h.inWindow, h.notHead⟩

/-- A candidate of a later window is one of an earlier window. -/
theorem IsCandidate.of_later {store : Store} {strategy : Strategy} {pipeline row : Pipeline}
    {windowStart laterStart : Timestamp} (h : IsCandidate store strategy pipeline laterStart row)
    (hOrder : windowStart ≤ laterStart) :
    IsCandidate store strategy pipeline windowStart row := by
  refine ⟨h.1, ?_⟩
  cases strategy with
  | flat =>
      obtain ⟨-, hRow, hShares, hRest⟩ := h
      exact ⟨hRow, hShares.of_later hOrder, hRest⟩
  | hierarchy =>
      refine h.2.imp fun root _ hRoot => ?_
      exact ⟨hRoot.1.of_later hOrder, hRoot.2⟩

/-! ## What a run has exchanged -/

/-- What a program asks in a world, and how it is answered. -/
def Program.exchanges {α : Type} : Program α → World → List Exchange
  | .done _, _ => []
  | .crash _, _ => []
  | .request asked resume, world =>
      let (answer, after) := world.answer asked
      ⟨asked, answer⟩ :: (resume answer).exchanges after

/-- A program that follows a discipline follows it alone as well. -/
theorem Program.Fulfills.run {α : Type} {discipline : Discipline}
    {post : List Exchange → α → Store → Prop} {program : Program α} {past : List Exchange}
    {world : World} (h : program.Follows discipline post past world.store)
    (hQuiet : world.disturbance = .none) {value : α}
    (hValue : (program.run world).1 = .ok value) :
    post (past ++ program.exchanges world) value (program.run world).2.store := by
  induction program generalizing past world with
  | done other =>
      obtain rfl : other = value := Except.ok.inj hValue
      rw [Program.exchanges, List.append_nil]
      exact h _ (discipline.refl _)
  | crash fault => cases hValue
  | request asked resume ih =>
      obtain ⟨hOccurs, hStill⟩ := World.occurs_answer hQuiet asked
      have hNext := (h _ (discipline.refl _)).2 _ _ hOccurs
      have hEnd := ih _ hNext hStill hValue
      rw [List.append_assoc] at hEnd
      exact hEnd

namespace TimedRun

/-- The exchanges of a run in a world. -/
def exchanges (run : TimedRun) (world : World) : List Exchange :=
  (cancelRedundant run.rules run.settings run.initiator).exchanges
    { world with clock := run.clock }

/-- A run that reports no canceled pipeline has handed over no record. -/
theorem auditRecords_eq_nil {run : TimedRun} {world : World} (hQuiet : world.disturbance = .none)
    {report : CancellationReport} (hReport : (run.execute world).1 = .ok (.ok report))
    (hNone : report.summary.canceled.toList = []) : auditRecords (run.exchanges world) = [] := by
  obtain ⟨timed, hTimed⟩ : ∃ timed : World, timed = { world with clock := run.clock } := ⟨_, rfl⟩
  have hAlone : timed.disturbance = .none := by
    rw [hTimed]
    exact hQuiet
  have hAccounted : Accounted (run.exchanges world) report.summary := by
    have hFollows := cancelRedundant_follows_sharedScope run.toCancellationRun timed.store
    unfold execute at hReport
    unfold exchanges
    rw [← hTimed] at hReport ⊢
    exact hFollows.run hAlone hReport
  have hCanceled : canceledIds (run.exchanges world) = [] := by
    refine List.eq_nil_iff_forall_not_mem.mpr fun id hId => ?_
    have hListed := (hAccounted.mem_canceled_iff id).mpr hId
    rw [hNone] at hListed
    exact List.not_mem_nil hListed
  have hAudited := hAccounted.audited
  rw [Audited, hCanceled] at hAudited
  exact List.map_eq_nil_iff.mp hAudited

/-- The same run at another time and with another batch size. -/
def again (run : TimedRun) (later : Timestamp) (batchSize : Nat) : TimedRun where
  rules := run.rules
  settings := { run.settings with batchSize := batchSize }
  initiator := run.initiator
  clock := later

/-- A run whose window starts no earlier has no further targets. -/
theorem targets_of_again {run : TimedRun} {later windowStart laterStart : Timestamp}
    {batchSize : Nat} {store : Store} {id : Nat}
    (hWindow : run.clock.subSeconds? run.settings.lookback = some windowStart)
    (hLater : later.subSeconds? run.settings.lookback = some laterStart)
    (hOrder : windowStart ≤ laterStart) (h : (run.again later batchSize).Targets store id) :
    run.Targets store id := by
  obtain ⟨row, ⟨hParent, start, project, hStart, hProject, hAuto, hCandidate⟩, hRest⟩ := h
  obtain rfl : laterStart = start := Option.some.inj (hLater.symm.trans hStart)
  exact ⟨row, ⟨hParent, windowStart, project, hWindow, hProject, hAuto,
    hCandidate.of_later hOrder⟩, hRest⟩

/-- A second run changes nothing, reports nothing as canceled and hands over no record.  It
finds its initiator as the first run has found it. -/
theorem again_changes_nothing {run : TimedRun} {later windowStart laterStart : Timestamp}
    {batchSize : Nat} {world : World} {project : Project} (hQuiet : world.disturbance = .none)
    (hIds : ∀ row ∈ world.store.pipelines.rows, row.id < idBound)
    (hStored : run.initiator ∈ world.store.pipelines.rows)
    (hProject : world.store.projects.find? run.initiator.projectId = some project)
    (hWindow : run.clock.subSeconds? run.settings.lookback = some windowStart)
    (hLater : later.subSeconds? run.settings.lookback = some laterStart)
    (hReading : run.clock.IsReading) (hLaterReading : later.IsReading)
    (hOrder : run.clock ≤ later) :
    ∃ report,
      ((run.again later batchSize).execute (run.execute world).2).1 = .ok (.ok report) ∧
      ((run.again later batchSize).execute (run.execute world).2).2.store =
        (run.execute world).2.store ∧
      report.summary.canceled.toList = [] ∧
      auditRecords ((run.again later batchSize).exchanges (run.execute world).2) = [] ∧
      (run.execute world).2.store.pipelines.find? run.initiator.id = some run.initiator := by
  have hStarts : windowStart ≤ laterStart :=
    Timestamp.subSeconds?_mono hWindow hLater hOrder hReading hLaterReading
  obtain ⟨-, ids, -, hStore, hStill, hTargets, -⟩ := run.execute_spec hQuiet hIds hWindow
  have hLaterIds : ∀ row ∈ (run.execute world).2.store.pipelines.rows, row.id < idBound := by
    rw [hStore]
    exact Store.ids_cancelRows_lt hIds
  obtain ⟨result, rest, hResult, hEnd, -, hRest, hReport⟩ :=
    (run.again later batchSize).execute_spec hStill hLaterIds hLater
  -- Of the targets of the second run none is left.
  have hNone : rest = [] := by
    refine List.eq_nil_iff_forall_not_mem.mpr fun id hId => ?_
    have hTarget := (hRest id).mp hId
    rw [hStore, targets_cancelRows_iff] at hTarget
    obtain ⟨hAgain, hNot⟩ := hTarget
    exact hNot ((hTargets id).mpr (targets_of_again hWindow hLater hStarts hAgain))
  have hFound : (run.execute world).2.store.projects.find?
      (run.again later batchSize).initiator.projectId = some project := by
    rw [hStore]
    exact hProject
  obtain ⟨report, rfl, hCanceled⟩ : ∃ report, result = .ok report ∧
      ∀ id, id ∈ report.summary.canceled.toList ↔ id ∈ rest := by
    refine hReport.resolve_right fun hMissing => ?_
    rw [hFound] at hMissing
    cases hMissing
  rw [hNone] at hCanceled hEnd
  have hEmpty : report.summary.canceled.toList = [] :=
    List.eq_nil_iff_forall_not_mem.mpr fun id hId => List.not_mem_nil ((hCanceled id).mp hId)
  refine ⟨report, hResult, ?_, hEmpty, auditRecords_eq_nil hStill hResult hEmpty, ?_⟩
  · rw [hEnd, Store.cancelRows_nil]
  · have hSpared : run.initiator.id ∉ ids := fun hId =>
      not_targets_initiator hStored ((hTargets _).mp hId)
    rw [hStore]
    exact Table.find?_key _
      ((Store.mem_pipelines_cancelRows_iff_of_not_mem hSpared).mpr hStored)

theorem again_changes_nothing_crowdedRef :
    ∃ report,
      (((ofPushed 3).again ⟨604801, 0⟩ 1).execute
        ((ofPushed 3).execute (World.start crowdedRef ⟨0, 0⟩)).2).1 = .ok (.ok report) ∧
      (((ofPushed 3).again ⟨604801, 0⟩ 1).execute
          ((ofPushed 3).execute (World.start crowdedRef ⟨0, 0⟩)).2).2.store =
        ((ofPushed 3).execute (World.start crowdedRef ⟨0, 0⟩)).2.store ∧
      report.summary.canceled.toList = [] ∧
      auditRecords (((ofPushed 3).again ⟨604801, 0⟩ 1).exchanges
        ((ofPushed 3).execute (World.start crowdedRef ⟨0, 0⟩)).2) = [] ∧
      ((ofPushed 3).execute (World.start crowdedRef ⟨0, 0⟩)).2.store.pipelines.find? 3 =
        some (pushedPipeline 3) :=
  again_changes_nothing rfl
    (by decide : ∀ row ∈ crowdedRef.pipelines.rows, row.id < idBound) (by decide)
    (by rfl : crowdedRef.projects.find? 1 = some ⟨1, "group/app", true, none, []⟩) rfl rfl
    (by decide) (by decide) (by decide)

end TimedRun

end PipelineUpkeep

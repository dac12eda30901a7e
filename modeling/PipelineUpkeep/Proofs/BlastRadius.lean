import PipelineUpkeep.Proofs.ExactlyOnceCancellation
import PipelineUpkeep.Proofs.SelectiveRuns
/-!
# How far a run reaches

A run changes nothing but the pipelines that it cancels and their builds, and it cancels
within its reach only: pipelines of its own project that belong to the ref, or descend from
an older pipeline of the ref.  Its own initiator is never among them.  The hierarchy
strategy does not leave the initiator out by its identifier; it is out of reach because a
pipeline without a parent can only be reached as a root, and a root is strictly older.
-/

namespace PipelineUpkeep

/-- The pipelines that a run for `pipeline` may cancel at all: other pipelines without a
parent of its project and ref, or what parent links inside the project lead to from an
older pipeline of its project and ref. -/
def InReach (rows : List Pipeline) (strategy : Strategy) (pipeline row : Pipeline) : Prop :=
  match strategy with
  | .flat =>
      row ∈ rows ∧ row.projectId = pipeline.projectId ∧ row.ref = pipeline.ref ∧
        row.parentId = none ∧ row.id ≠ pipeline.id
  | .hierarchy =>
      Descends rows
        (fun root => root.projectId = pipeline.projectId ∧ root.ref = pipeline.ref ∧
          root.createdAt < pipeline.createdAt) row

section Reach

variable {rows : List Pipeline} {strategy : Strategy} {pipeline row : Pipeline}
  {windowStart : Time.Timestamp} {headSha : Option String}

theorem Qualifies.inReach (h : Qualifies rows strategy pipeline windowStart headSha row) :
    InReach rows strategy pipeline row := by
  cases strategy with
  | flat =>
      obtain ⟨hRow, hFits, hOther, -, hParent⟩ := h
      exact ⟨hRow, hFits.project, hFits.ref, hParent, hOther⟩
  | hierarchy =>
      exact Descends.imp (fun _ _ ⟨hFits, hOlder, _⟩ => ⟨hFits.project, hFits.ref, hOlder⟩) h

theorem InReach.projectId_eq (h : InReach rows strategy pipeline row) :
    row.projectId = pipeline.projectId := by
  cases strategy with
  | flat => exact h.2.1
  | hierarchy => exact Descends.projectId_eq (fun _ hRoot => hRoot.1) h

/-- A pipeline without a parent is not within its own reach, whatever else is stored. -/
theorem InReach.id_ne (h : InReach rows strategy pipeline row)
    (hParent : pipeline.parentId = none)
    (hOrigin : row.id = pipeline.id → pipeline.SameOrigin row) : row.id ≠ pipeline.id := by
  intro hId
  have hSame := hOrigin hId
  cases strategy with
  | flat => exact h.2.2.2.2 hId
  | hierarchy =>
      -- It would have to be a root, and strictly older than itself.
      have hOlder := (Descends.isRoot_of_parentId h (hSame.parentId.trans hParent)).2.2
      rw [hSame.createdAt] at hOlder
      exact Time.Timestamp.lt_irrefl _ hOlder

end Reach

/-- The pipeline under an identifier, or one of its builds, is another one after than it
was before. -/
def Store.Differs (before after : Store) (id : Nat) : Prop :=
  after.pipelines.find? id ≠ before.pipelines.find? id ∨ after.buildsOf id ≠ before.buildsOf id

/-- A cancellation changes the canceled pipeline and its builds only. -/
theorem Store.Differs.eq_of_cancelRows {store : Store} {canceledId canceledById id : Nat}
    (h : store.Differs (store.cancelRows [canceledId] canceledById) id) : id = canceledId := by
  by_contra hOther
  have hNot : id ∉ [canceledId] := by
    rw [List.mem_singleton]
    exact hOther
  rcases h with hRow | hBuilds
  · apply hRow
    rw [Store.find?_pipelines_cancelRows]
    cases hFound : store.pipelines.find? id with
    | none => rfl
    | some row =>
        obtain ⟨-, rfl⟩ := (store.pipelines.find?_eq_some_iff id row).mp hFound
        rw [Option.map_some, Store.cancelChange_of_not_mem hNot]
  · exact hBuilds (Store.buildsOf_cancelRows_of_not_mem hNot)

/-- What one request of a run for `pipeline` does and does not do. -/
structure StaysInReach {ι : Type} (rules : PolicyRules) (pipeline : Pipeline)
    (moment : Moment ι) : Prop where
  /-- The initiator and its builds are left alone. -/
  own : ¬ moment.before.Differs moment.after pipeline.id
  otherProjects : ∀ row ∈ moment.before.pipelines.rows, row.projectId ≠ pipeline.projectId →
    ¬ moment.before.Differs moment.after row.id
  onlyCancels : ∀ id, moment.before.Differs moment.after id → moment.Cancels id
  /-- The strategy is that of the stored project. -/
  canceled : ∀ row ∈ moment.before.pipelines.rows, moment.Cancels row.id →
    ∃ project, moment.before.projects.find? pipeline.projectId = some project ∧
      InReach moment.before.pipelines.rows (Strategy.ofPolicy (rules.resolve project)) pipeline row

/-- A request that cancels one row within reach, other than the initiator, stays in reach. -/
theorem staysInReach_of_cancelRows {ι : Type} {rules : PolicyRules} {pipeline : Pipeline}
    {moment : Moment ι} {current : Pipeline} {canceledById : Nat} {project : Project}
    (hCurrent : current ∈ moment.before.pipelines.rows)
    (hStatus : current.status.isCancelable = true)
    (hAfter : moment.after = moment.before.cancelRows [current.id] canceledById)
    (hProject : moment.before.projects.find? pipeline.projectId = some project)
    (hReach : InReach moment.before.pipelines.rows (Strategy.ofPolicy (rules.resolve project))
      pipeline current) (hOther : current.id ≠ pipeline.id) :
    StaysInReach rules pipeline moment := by
  have hCancels := moment.cancels_iff_of_cancelRows hCurrent hStatus hAfter
  have hChanged (id : Nat) (hDiffers : moment.before.Differs moment.after id) :
      id = current.id := by
    rw [hAfter] at hDiffers
    exact hDiffers.eq_of_cancelRows
  refine ⟨fun hOwn => hOther (hChanged _ hOwn).symm, fun row hRow hProjects hDiffers => ?_,
    fun id hDiffers => (hCancels id).mpr (hChanged id hDiffers), fun row hRow hCanceled => ?_⟩
  · have hSame := moment.before.pipelines.eq_of_key_eq hRow hCurrent (hChanged _ hDiffers)
    rw [hSame] at hProjects
    exact hProjects hReach.projectId_eq
  · have hId := (hCancels row.id).mp hCanceled
    rw [moment.before.pipelines.eq_of_key_eq hRow hCurrent hId]
    exact ⟨project, hProject, hReach⟩

theorem staysInReach_of_eq {ι : Type} {moment : Moment ι} (hSame : moment.after = moment.before)
    (rules : PolicyRules) (pipeline : Pipeline) : StaysInReach rules pipeline moment := by
  have hNone (id : Nat) : ¬ moment.before.Differs moment.after id := by
    rw [hSame]
    rintro (hRow | hBuilds)
    · exact hRow rfl
    · exact hBuilds rfl
  exact ⟨hNone _, fun row _ _ => hNone row.id, fun id hDiffers => absurd hDiffers (hNone id),
    fun row _ hCancels => absurd hCancels (moment.not_cancels_of_eq hSame row.id)⟩

section Histories

variable {κ : Type} [DecidableEq κ] {runs : κ → CancellationRun} {store : Store}
  {history : List (Moment κ)}
  {final : System fun _ : κ => Except UpkeepError CancellationReport}

/-- Whatever other runs and callers do to the store in between, every request of the run
of a stored pipeline without a parent stays in reach. -/
theorem run_stays_in_reach
    (h : Interleaved Store.Calls (CancellationRun.system store runs) history final)
    {moment : Moment κ} (hMoment : moment ∈ history)
    (hStored : (runs moment.client).initiator ∈ store.pipelines.rows)
    (hParent : (runs moment.client).initiator.parentId = none) :
    StaysInReach (runs moment.client).rules (runs moment.client).initiator moment := by
  obtain ⟨earlier, later, hSplit⟩ := List.append_of_mem hMoment
  rcases h.run_selects hSplit with hSame | ⟨current, hCurrent, hStatus, hAfter, hSelected⟩
  · exact staysInReach_of_eq hSame _ _
  · obtain ⟨project, head, windowStart, hProject, -, row, hRow, hId, hQualifies⟩ := hSelected
    obtain rfl := moment.before.pipelines.eq_of_key_eq hRow hCurrent hId
    have hReach := hQualifies.inReach
    have hKeeps : store.KeepsOrigins moment.before := h.keepsOrigins_before hMoment
    have hOther := hReach.id_ne hParent (hKeeps.sameOrigin hStored hRow)
    exact staysInReach_of_cancelRows hRow hStatus hAfter hProject hReach hOther

end Histories

/-- The run of the newest pipeline of a family with the hierarchy strategy, up to its second
cancellation. -/
def familyRefHistory : List (Moment Unit) :=
  ((CancellationRun.system familyRef fun _ : Unit =>
    ⟨.fixed ⟨true, true⟩, .standard, pushedPipeline 3⟩).play ⟨604800, 0⟩
      (List.replicate 11 ())).1

/-- The cancellation of the child. -/
def familyRefMoment : Moment Unit :=
  familyRefHistory.get ⟨10, by decide +kernel⟩

theorem run_stays_in_reach_familyRef :
    familyRefMoment.Cancels 2 ∧
      StaysInReach (.fixed ⟨true, true⟩) (pushedPipeline 3) familyRefMoment :=
  ⟨⟨lateChild, by decide +kernel, rfl, by decide, lateChild.afterCancel 3, by decide +kernel,
      rfl, rfl⟩,
    run_stays_in_reach (interleaved_play Store.Calls _ _ _)
      (List.get_mem familyRefHistory ⟨10, by decide +kernel⟩)
      (by decide +kernel : pushedPipeline 3 ∈ familyRef.pipelines.rows) rfl⟩

end PipelineUpkeep

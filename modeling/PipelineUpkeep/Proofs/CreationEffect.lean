import PipelineUpkeep.Proofs.BlastRadius
import PipelineUpkeep.Proofs.CreationAccount
import PipelineUpkeep.Proofs.TipRaces
/-!
# Creations without other writers

In a world that nobody disturbs a creation is decided by the store and the clock: it leaves
the store as it was, or with one more pipeline and its builds, of which the pipeline has
canceled others.  It has not canceled itself, whatever the strategy is.
-/

namespace PipelineUpkeep

open Time

/-! ## A run alone with the store -/

/-- Other pipelines are canceled on behalf of a stored one. -/
def Store.CancelsOthers (before after : Store) (id : Nat) : Prop :=
  ∃ ids, id ∉ ids ∧ after = before.cancelRows ids id

namespace Store.CancelsOthers

theorem refl (store : Store) (id : Nat) : store.CancelsOthers store id :=
  ⟨[], List.not_mem_nil, Store.cancelRows_nil.symm⟩

theorem trans {before middle after : Store} {id : Nat} (h : before.CancelsOthers middle id)
    (hLater : middle.CancelsOthers after id) : before.CancelsOthers after id := by
  obtain ⟨ids, hIds, rfl⟩ := h
  obtain ⟨others, hOthers, rfl⟩ := hLater
  refine ⟨ids ++ others, fun hMem => ?_, Store.cancelRows_cancelRows others⟩
  exact (List.mem_append.mp hMem).elim hIds hOthers

/-- The row on whose behalf it happens stays as it is. -/
theorem mem_pipelines {before after : Store} {row : Pipeline}
    (h : before.CancelsOthers after row.id)
    (hRow : row ∈ before.pipelines.rows) : row ∈ after.pipelines.rows := by
  obtain ⟨ids, hIds, rfl⟩ := h
  exact (Store.mem_pipelines_cancelRows_iff_of_not_mem hIds).mpr hRow

theorem schedules_eq {before after : Store} {id : Nat} (h : before.CancelsOthers after id) :
    after.schedules = before.schedules := by
  obtain ⟨ids, -, rfl⟩ := h
  rfl

end Store.CancelsOthers

section Runs

variable {settings : CancellationSettings} {pipeline : Pipeline} {clock : Timestamp}
  {store : Store} {past : List Exchange}

/-- A run that is alone with the store, as far as it is known to be selective. -/
def Contract.selectiveAlone (rules : PolicyRules) (pipeline : Pipeline) (clock : Timestamp) :
    Contract :=
  { Contract.alone clock with permits := (Discipline.selective rules pipeline).permits }

/-- Selected rows of a stored pipeline without a parent are other rows. -/
theorem cancelsOthers_of_selective {rules : PolicyRules} {asked : Request}
    {answer : asked.Answer} {before after : Store} (hParent : pipeline.parentId = none)
    (hPermits : (Discipline.selective rules pipeline).permits past before asked)
    (hOccurs : asked.Occurs before answer after) (hStored : pipeline ∈ before.pipelines.rows) :
    before.CancelsOthers after pipeline.id := by
  obtain ⟨hOnly, hSelected⟩ := hPermits
  rcases hOccurs.cancels_cases hOnly with ⟨hSame, -⟩ | hCancels
  · rw [hSame]
    exact .refl before pipeline.id
  · obtain ⟨access, row, rfl, current, hCurrent, hId, -, -, hAfter⟩ := hCancels
    obtain ⟨project, head, windowStart, -, -, selected, hRow, hSame, hQualifies⟩ :=
      hSelected access row _ rfl
    have hOther : selected.id ≠ pipeline.id := hQualifies.inReach.id_ne hParent fun hOwn => by
      rw [before.pipelines.eq_of_key_eq hRow hStored hOwn]
      exact .refl pipeline
    refine ⟨[current.id], fun hOwn => hOther ?_, hAfter⟩
    rw [hSame, hId, List.mem_singleton.mp hOwn]

/-- Alone with the store, the run of a stored pipeline without a parent cancels others, and
comes to its end if its window starts in range. -/
theorem cancelRedundant_alone (rules : PolicyRules) (hStored : pipeline ∈ store.pipelines.rows)
    (hParent : pipeline.parentId = none) (hWindow : clock.subSeconds? settings.lookback ≠ none) :
    (cancelRedundant rules settings pipeline).Fulfills (.alone clock)
      (fun _ _ held => store.CancelsOthers held pipeline.id) past store := by
  have hSelective : (cancelRedundant rules settings pipeline).Fulfills
      (Discipline.selective rules pipeline).contract _ [] store :=
    cancelRedundant_selective rules settings pipeline (.refl [])
  have hTerms : (cancelRedundant rules settings pipeline).Fulfills
      (runTerms (· = clock) settings.lookback pipeline.id) _ [] store :=
    cancelRedundant_keepsTerms rules settings pipeline
  have hOthers (before after : Store) (hSame : after = before) :
      before.KeepsOrigins after ∧ True := by
    rw [hSame]
    exact ⟨.refl before, trivial⟩
  have hFault (own : List Exchange) (_ : True)
      (hRange : ¬ HasLooked own ∧ ∃ now, now = clock ∧ now.subSeconds? settings.lookback = none) :
      False := by
    obtain ⟨-, _, rfl, hNone⟩ := hRange
    exact hWindow hNone
  have hBoth := hSelective.both hTerms (.selectiveAlone rules pipeline clock) hOthers
    (fun _ _ _ hPermits _ => hPermits) (fun _ _ _ _ _ _ _ hEnds => hEnds) hFault
  have hCancels := hBoth.carry
    (fun before after => pipeline ∈ before.pipelines.rows → before.CancelsOthers after pipeline.id)
    (fun held _ => .refl held pipeline.id)
    (fun hOne hTwo hRow => (hOne hRow).trans (hTwo ((hOne hRow).mem_pipelines hRow)))
    (fun before after hSame _ => hSame ▸ .refl before pipeline.id)
    (fun _ _ _ _ _ hPermits hEnds hRow =>
      cancelsOthers_of_selective hParent hPermits hEnds.1 hRow)
  have hAlone := hCancels.since (.alone clock) past (fun _ _ => id) (fun _ _ _ _ => id)
    (fun _ _ _ _ => trivial) (fun _ => id)
  rw [List.append_nil] at hAlone
  refine hAlone.imp ?_
  rintro _ _ held ⟨_, -, -, hHeld⟩
  exact hHeld hStored

end Runs

/-! ## A store with one more pipeline -/

/-- The pipeline is as it was, or has been canceled on behalf of another one. -/
def Pipeline.CanceledFor (canceledById : Nat) (row later : Pipeline) : Prop :=
  later = row ∨ (row.status.isCancelable = true ∧ later = row.afterCancel canceledById)

/-- The build is as it was, or has been canceled on behalf of a pipeline. -/
def Build.CanceledFor (canceledById : Nat) (build later : Build) : Prop :=
  later = build ∨ (build.status.isCancelable = true ∧ later = build.afterCancel canceledById)

/-- A new pipeline and its builds have come to the store as they were asked for.  Row by row,
the pipelines and builds of before are as they were or canceled on behalf of the new one. -/
structure Store.Gains (before : Store) (new : NewPipeline) (after : Store) : Prop where
  pipelines : ∃ others, after.pipelines.rows = others ++ [(before.createPipeline new).1] ∧
    List.Forall₂ (Pipeline.CanceledFor (before.createPipeline new).1.id)
      before.pipelines.rows others
  builds : ∃ others, after.builds.rows = others ++
      buildRows (before.createPipeline new).1.id before.builds.nextKey new.builds ∧
    List.Forall₂ (Build.CanceledFor (before.createPipeline new).1.id) before.builds.rows others
  projects : after.projects = before.projects
  users : after.users = before.users
  refs : after.refs = before.refs

theorem Store.gains_of_cancelsOthers {before after : Store} {new : NewPipeline}
    (h : (before.createPipeline new).2.CancelsOthers after (before.createPipeline new).1.id) :
    before.Gains new after := by
  obtain ⟨ids, hIds, rfl⟩ := h
  refine ⟨?_, ?_, rfl, rfl, rfl⟩
  · rw [rows_pipelines_cancelRows, rows_pipelines_createPipeline, List.map_append,
      List.map_singleton, cancelChange_of_not_mem hIds]
    refine ⟨_, rfl, List.forall₂_map_right_iff.mpr (List.forall₂_same.mpr fun row hRow => ?_)⟩
    have hStored : row ∈ (before.createPipeline new).2.pipelines.rows := by
      rw [rows_pipelines_createPipeline]
      exact List.mem_append_left _ hRow
    unfold cancelChange
    split
    · rename_i hTarget
      rw [isCancelTarget_of_mem hStored, Bool.and_eq_true] at hTarget
      exact Or.inr ⟨hTarget.2, rfl⟩
    · exact Or.inl rfl
  · rw [rows_builds_cancelRows, rows_builds_createPipeline, List.map_append]
    refine ⟨_, congrArg _ ?_, List.forall₂_map_right_iff.mpr
      (List.forall₂_same.mpr fun build _ => ?_)⟩
    · refine (List.map_congr_left fun build hBuild => ?_).trans (List.map_id _)
      rw [← mem_buildRows hBuild] at hIds
      rw [cancelBuildChange, isCancelTarget_of_not_mem hIds, Bool.false_and]
      exact if_neg Bool.false_ne_true
    · unfold cancelBuildChange
      split
      · rename_i hTarget
        rw [Bool.and_eq_true] at hTarget
        exact Or.inr ⟨hTarget.2, rfl⟩
      · exact Or.inl rfl

/-! ## The effect of a creation -/

/-- What a creation returns and leaves, by the store and the clock. -/
inductive CreationEffect (request : CreationRequest) (clock : Timestamp) (before : Store) :
    Except CreationError CreationResponse → Store → Prop where
  | missing (hProject : before.projects.find? request.projectId = none) :
      CreationEffect request clock before (.error (.projectNotFound request.projectId)) before
  | refused (project : Project) (refusal : Refusal)
      (hProject : before.projects.find? request.projectId = some project)
      (hRefusal : request.refusal? project (before.refs.find? project.id request.ref) =
        some refusal)
      (hUnsaved : request.savedStatus? refusal = none) :
      CreationEffect request clock before (.ok ⟨some refusal.message, none, none⟩) before
  | saved (project : Project) (head : RefHead) (refusal : Refusal) (status : Status)
      (hProject : before.projects.find? request.projectId = some project)
      (hTip : before.refs.find? project.id request.ref = some head)
      (hRefusal : request.refusal? project (some head) = some refusal)
      (hSaved : request.savedStatus? refusal = some status) :
      CreationEffect request clock before
        (.ok ⟨some refusal.message,
          some (before.createPipeline (request.newPipeline head status clock [])).1, none⟩)
        (before.createPipeline (request.newPipeline head status clock [])).2
  | accepted (project : Project) (head : RefHead) (report : Option CancellationReport)
      (after : Store)
      (hProject : before.projects.find? request.projectId = some project)
      (hTip : before.refs.find? project.id request.ref = some head)
      (hAccepted : request.refusal? project (some head) = none)
      (hGains : before.Gains (request.newPipeline head .created clock project.newBuilds) after)
      (hSchedules : after.schedules = before.schedules) :
      CreationEffect request clock before
        (.ok ⟨none, some (before.createPipeline
          (request.newPipeline head .created clock project.newBuilds)).1, report⟩) after

section Walk

variable {request : CreationRequest} {project : Project} {clock : Timestamp} {store : Store}
  {past : List Exchange}

theorem rejectCreation_alone {head : RefHead} (refusal : Refusal) {status : Status}
    (hProject : store.projects.find? request.projectId = some project)
    (hTip : store.refs.find? project.id request.ref = some head)
    (hRefusal : request.refusal? project (some head) = some refusal)
    (hStatus : refusal.status = some status) :
    (rejectCreation request project head status refusal.message).Fulfills (.alone clock)
      (fun _ result held => CreationEffect request clock store result held) past store := by
  have hSavedStatus : request.savedStatus? refusal =
      if request.saveOnErrors then some status else none := by
    rw [CreationRequest.savedStatus?, hStatus]
  unfold rejectCreation
  simp only
  split
  · rename_i hSave
    rw [if_pos hSave] at hSavedStatus
    refine Program.readClock_alone.andThen ?_
    rintro _ _ _ ⟨rfl, rfl⟩
    refine (Program.callStore_alone .engine _).andThen ?_
    rintro _ created held hCreated
    obtain ⟨rfl, rfl⟩ := Prod.mk.inj hCreated
    refine (Program.writeLog_alone _ _).andThen ?_
    rintro _ _ _ rfl
    exact Program.pure_alone
      (.saved project head refusal status hProject hTip hRefusal hSavedStatus)
  · rename_i hSave
    rw [if_neg hSave] at hSavedStatus
    refine (Program.writeLog_alone _ _).andThen ?_
    rintro _ _ _ rfl
    exact Program.pure_alone (.refused project refusal hProject (hTip ▸ hRefusal) hSavedStatus)

theorem cancelAfterCreation_alone (rules : PolicyRules) {settings : CancellationSettings}
    {row : Pipeline} (hStored : row ∈ store.pipelines.rows) (hParent : row.parentId = none)
    (hWindow : clock.subSeconds? settings.lookback ≠ none) :
    (cancelAfterCreation rules settings row).Fulfills (.alone clock)
      (fun _ _ held => store.CancelsOthers held row.id) past store := by
  unfold cancelAfterCreation
  refine (cancelRedundant_alone rules hStored hParent hWindow).andThen ?_
  rintro _ result held hHeld
  match result with
  | .ok report =>
      exact Program.pure_alone hHeld
  | .error error =>
      refine (Program.writeLog_alone _ _).andThen ?_
      rintro _ _ _ rfl
      exact Program.pure_alone hHeld

/-- Alone with the store, a creation has its effect, if the window starts in range. -/
theorem createForRequest_alone (rules : PolicyRules) {settings : CancellationSettings}
    (request : CreationRequest) (hWindow : clock.subSeconds? settings.lookback ≠ none) :
    (createForRequest rules settings request).Fulfills (.alone clock)
      (fun _ result held => CreationEffect request clock store result held) past store := by
  unfold createForRequest
  refine (Program.callStore_alone .engine (.project _)).andThen ?_
  rintro _ found held hFound
  obtain ⟨rfl, rfl⟩ := Prod.mk.inj hFound
  cases hProject : store.projects.find? request.projectId with
  | none =>
      exact Program.pure_alone (.missing hProject)
  | some project =>
      refine (Program.callStore_alone .engine (.refHead _ _)).andThen ?_
      rintro _ tip held hRead
      obtain ⟨rfl, rfl⟩ := Prod.mk.inj hRead
      cases hTip : store.refs.find? project.id request.ref with
      | none =>
          exact Program.pure_alone (.refused project ⟨"Reference not found", none⟩ hProject
            (hTip ▸ rfl) (ite_self _))
      | some head =>
          simp only
          split
          · rename_i reason hReason
            have hRefusal := request.refusal?_of_reason head hReason
            exact rejectCreation_alone ⟨_, _⟩ hProject hTip hRefusal rfl
          · rename_i hReason
            split
            · rename_i hSkip
              have hRefusal := request.refusal?_of_skip head hReason hSkip
              exact rejectCreation_alone ⟨_, _⟩ hProject hTip hRefusal rfl
            · rename_i hSkip
              have hAccepted := (request.refusal?_eq_none_iff head).mpr ⟨hReason, hSkip⟩
              refine Program.readClock_alone.andThen ?_
              rintro _ _ _ ⟨rfl, rfl⟩
              refine (Program.callStore_alone .engine _).andThen ?_
              rintro _ created held hCreated
              obtain ⟨rfl, rfl⟩ := Prod.mk.inj hCreated
              refine (Program.writeLog_alone _ _).andThen ?_
              rintro _ _ _ rfl
              refine (cancelAfterCreation_alone rules (Store.mem_createPipeline _ _) rfl
                hWindow).andThen ?_
              rintro _ report held hHeld
              exact Program.pure_alone (.accepted project head report _ hProject hTip hAccepted
                (Store.gains_of_cancelsOthers hHeld) hHeld.schedules_eq)

end Walk

theorem CreationEffect.schedules_eq {request : CreationRequest} {clock : Timestamp}
    {before after : Store} {result : Except CreationError CreationResponse}
    (h : CreationEffect request clock before result after) :
    after.schedules = before.schedules := by
  cases h with
  | missing | refused | saved => rfl
  | accepted _ _ _ _ _ _ _ _ hSchedules => exact hSchedules

/-- Without a pipeline in it, a response tells of a refusal. -/
theorem CreationEffect.of_pipeline_eq_none {request : CreationRequest} {clock : Timestamp}
    {before after : Store} {response : CreationResponse}
    (h : CreationEffect request clock before (.ok response) after)
    (hNone : response.pipeline = none) :
    after = before ∧ ∃ project refusal,
      before.projects.find? request.projectId = some project ∧
        request.refusal? project (before.refs.find? project.id request.ref) = some refusal := by
  cases h with
  | refused project refusal hProject hRefusal _ => exact ⟨rfl, project, refusal, hProject, hRefusal⟩
  | saved => cases hNone
  | accepted => cases hNone

/-- If refusals are not stored, the pipeline in a response is one that was asked for. -/
theorem CreationEffect.of_pipeline_eq_some {request : CreationRequest} {clock : Timestamp}
    {before after : Store} {response : CreationResponse} {pipeline : Pipeline}
    (h : CreationEffect request clock before (.ok response) after)
    (hSome : response.pipeline = some pipeline) (hForgotten : request.saveOnErrors = false) :
    ∃ project head, before.projects.find? request.projectId = some project ∧
      before.refs.find? project.id request.ref = some head ∧
      pipeline = (before.createPipeline
        (request.newPipeline head .created clock project.newBuilds)).1 ∧
      before.Gains (request.newPipeline head .created clock project.newBuilds) after := by
  cases h with
  | refused => cases hSome
  | saved _ _ refusal _ _ _ _ hSaved =>
      rw [CreationRequest.savedStatus?, hForgotten] at hSaved
      cases hSaved
  | accepted project head _ _ hProject hTip _ hGains =>
      exact ⟨project, head, hProject, hTip, (Option.some.inj hSome).symm, hGains⟩

/-- A store that others leave alone, and of which every call from some turn on fails. -/
def Circumstances.failingFrom (turn : Nat) (start : Store) (clock : Timestamp) : Circumstances :=
  fun history asked =>
    let held := (history.getLast?.map (·.after)).getD start
    match asked with
    | .store access call =>
        if turn ≤ history.length then (held, .error .poisoned, held)
        else (held, Request.serve clock (.store access call) held)
    | asked => (held, asked.serve clock held)

theorem Circumstances.honest_failingFrom (turn : Nat) (start : Store) (clock : Timestamp) :
    (failingFrom turn start clock).Honest := by
  intro history asked
  cases asked with
  | store access call =>
      unfold failingFrom
      simp only
      split
      · exact Or.inr ⟨⟨_, rfl⟩, rfl⟩
      · exact Or.inl (Request.occurs_serve clock _ _)
  | _ =>
      exact Or.inl (Request.occurs_serve clock _ _)

end PipelineUpkeep

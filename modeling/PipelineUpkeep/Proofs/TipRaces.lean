import PipelineUpkeep.Proofs.ExactlyOnceCancellation
import PipelineUpkeep.Proofs.SelectiveRuns
/-!
# Runs and the tip of their ref

Pipelines are created side by side on refs whose tips move.  A creation reads the tip once
more when its cancellation begins, and the flat strategy leaves the pipelines of this
commit alone in every batch and every attempt, while the pipelines themselves are read
anew.  So a flat run never cancels a pipeline of the commit that it has read as the tip.
It does cancel a pipeline of the commit at the tip of the moment if the tip was moved after
it was read: `raceMoment` is such a cancellation, of a pipeline that was created for the
new commit.
-/

namespace PipelineUpkeep

/-- The creation of a pipeline and what it runs with. -/
structure CreationRun where
  rules : PolicyRules
  settings : CancellationSettings
  request : CreationRequest

/-- The creations before any of them has made a request. -/
def CreationRun.system {κ : Type} (store : Store) (runs : κ → CreationRun) :
    System fun _ : κ => Except CreationError CreationResponse where
  store := store
  rest client := createForRequest (runs client).rules (runs client).settings (runs client).request

/-! ## What a creation cancels -/

/-- A creation may cancel only what a pipeline of its ref makes redundant. -/
def Discipline.creating (rules : PolicyRules) (request : CreationRequest) : Discipline where
  others := Store.KeepsOrigins
  refl := Store.KeepsOrigins.refl
  trans := Store.KeepsOrigins.trans
  permits past before
    | .store _ (.cancelRunning row cancel) =>
        ∃ pipeline : Pipeline, pipeline.projectId = request.projectId ∧
          pipeline.ref = request.ref ∧ cancel = ⟨pipeline.id, false⟩ ∧
          IsSelected rules pipeline past before row.id
    | _ => True
  mayFault _ := True

section Creation

variable {rules : PolicyRules} {settings : CancellationSettings} {request : CreationRequest}
  {past : List Exchange} {store : Store}

theorem rejectCreation_creating (project : Project) (head : RefHead) (status : Status)
    (message : String) :
    (rejectCreation request project head status message).Follows (.creating rules request)
      (fun _ _ _ => True) past store := by
  unfold rejectCreation
  simp only
  split
  · refine (Program.fulfills_ask .clock fun _ _ => trivial).andThen fun _ now _ _ => ?_
    refine (Program.fulfills_ask (.store .engine (.createPipeline _))
      fun _ _ => trivial).andThen fun _ created _ _ => ?_
    match created with
    | .error _ => exact Program.fulfills_pure fun _ _ => trivial
    | .ok _ =>
        refine (Program.fulfills_ask (.log _) fun _ _ => trivial).andThen fun _ _ _ _ => ?_
        exact Program.fulfills_pure fun _ _ => trivial
  · refine (Program.fulfills_ask (.log _) fun _ _ => trivial).andThen fun _ _ _ _ => ?_
    exact Program.fulfills_pure fun _ _ => trivial

/-- The cancellation that follows is the run of a pipeline of the ref. -/
theorem cancelAfterCreation_creating {pipeline : Pipeline}
    (hProject : pipeline.projectId = request.projectId) (hRef : pipeline.ref = request.ref)
    (hPast : SameAccount [] past) :
    (cancelAfterCreation rules settings pipeline).Follows (.creating rules request)
      (fun _ _ _ => True) past store := by
  have hRun : (cancelRedundant rules settings pipeline).Follows (.creating rules request)
      (fun _ _ _ => True) past store := by
    refine (cancelRedundant_selective rules settings pipeline hPast).mono
      (Discipline.creating rules request).contract (fun _ _ => id) (fun _ _ _ _ => id) ?_
      (fun _ => id)
    intro exchanges before asked hPermits
    cases asked with
    | store access call =>
        cases call with
        | cancelRunning row cancel =>
            exact ⟨pipeline, hProject, hRef, hPermits.1, hPermits.2 _ _ _ rfl⟩
        | _ => trivial
    | _ => trivial
  unfold cancelAfterCreation
  refine hRun.andThen fun _ result _ _ => ?_
  match result with
  | .ok report => exact Program.fulfills_pure fun _ _ => trivial
  | .error error =>
      refine (Program.fulfills_ask (.log _) fun _ _ => trivial).andThen fun _ _ _ _ => ?_
      exact Program.fulfills_pure fun _ _ => trivial

theorem createForRequest_creating (rules : PolicyRules) (settings : CancellationSettings)
    (request : CreationRequest) (store : Store) :
    (createForRequest rules settings request).Follows (.creating rules request)
      (fun _ _ _ => True) [] store := by
  unfold createForRequest
  refine (Program.fulfills_ask (.store .engine (.project _)) fun _ _ => trivial).andThen ?_
  rintro _ found held ⟨rfl, -⟩
  match found with
  | .error _ | .ok none => exact Program.fulfills_pure fun _ _ => trivial
  | .ok (some project) =>
      refine (Program.fulfills_ask (.store .engine (.refHead _ _)) fun _ _ => trivial).andThen ?_
      rintro _ tip held ⟨rfl, -⟩
      match tip with
      | .error _ | .ok none => exact Program.fulfills_pure fun _ _ => trivial
      | .ok (some head) =>
          simp only
          split
          · exact rejectCreation_creating _ _ _ _
          · split
            · exact rejectCreation_creating _ _ _ _
            · refine (Program.fulfills_ask .clock fun _ _ => trivial).andThen ?_
              rintro _ now held ⟨rfl, -⟩
              refine (Program.fulfills_ask (.store .engine (.createPipeline _))
                fun _ _ => trivial).andThen ?_
              rintro _ created held ⟨rfl, before, after, -, hOccurs, -⟩
              match created with
              | .error _ => exact Program.fulfills_pure fun _ _ => trivial
              | .ok pipeline =>
                  refine (Program.fulfills_ask (.log _) fun _ _ => trivial).andThen ?_
                  rintro _ _ held ⟨rfl, -⟩
                  have hRow : (before.createPipeline (request.newPipeline head .created now
                      project.newBuilds)).1 = pipeline :=
                    Except.ok.inj (congrArg Prod.fst hOccurs)
                  refine (cancelAfterCreation_creating ?_ ?_ ?_).andThen fun _ _ _ _ => ?_
                  · rw [← hRow]
                    rfl
                  · rw [← hRow]
                    rfl
                  · exact ⟨rfl, rfl⟩
                  · exact Program.fulfills_pure fun _ _ => trivial

end Creation

section Histories

variable {κ : Type} [DecidableEq κ] {runs : κ → CreationRun} {store : Store}
  {history : List (Moment κ)}
  {final : System fun _ : κ => Except CreationError CreationResponse}

/-- What a creation cancels it has selected, on behalf of a pipeline of its ref. -/
theorem Interleaved.creation_selects
    (h : Interleaved Store.Calls (CreationRun.system store runs) history final)
    {earlier later : List (Moment κ)} {moment : Moment κ}
    (hSplit : history = earlier ++ moment :: later) {id : Nat} (hCancels : moment.Cancels id) :
    ∃ pipeline : Pipeline, pipeline.projectId = (runs moment.client).request.projectId ∧
      pipeline.ref = (runs moment.client).request.ref ∧
      IsSelected (runs moment.client).rules pipeline (ownExchanges moment.client earlier)
        moment.before id := by
  subst hSplit
  have hOccurs := h.occurs moment (List.mem_append_right _ List.mem_cons_self)
  have hPermits := h.permits_among_calls (createForRequest_creating _ _ _ _)
    (fun _ _ hCall => hCall.keepsOrigins) (fun _ _ _ _ hEnds => hEnds)
  obtain ⟨access, row, cancel, hAsked⟩ := hCancels.exists_cancelRunning hOccurs
  rw [hAsked] at hPermits
  obtain ⟨pipeline, hProject, hRef, rfl, hSelected⟩ := hPermits
  have hOnly : moment.exchange.asked.OnlyCancels pipeline.id := by
    rw [hAsked]
    rfl
  rcases hOccurs.cancels_cases hOnly with hSame | hCases
  · exact absurd hCancels (moment.not_cancels_of_eq hSame.1 id)
  · obtain ⟨_, other, hOther, current, hCurrent, hId, hStatus, -, hAfter⟩ := hCases
    have hRow : row = other := by
      rw [hAsked] at hOther
      cases hOther
      rfl
    have hCanceled := (moment.cancels_iff_of_cancelRows hCurrent hStatus hAfter id).mp hCancels
    rw [hCanceled, ← hId, ← hRow]
    exact ⟨pipeline, hProject, hRef, hSelected⟩

/-- The client has read the tip of the ref at this moment, and not again since. -/
def IsLastReading (client : κ) (projectId : Nat) (ref : String) (earlier : List (Moment κ))
    (reading : Moment κ) : Prop :=
  ∃ past between, earlier = past ++ reading :: between ∧ reading.client = client ∧
    reading.exchange.tip? projectId ref ≠ none ∧
    ∀ other ∈ between, other.client = client → other.exchange.tip? projectId ref = none

theorem exists_isLastReading {client : κ} {projectId : Nat} {ref : String}
    {earlier : List (Moment κ)} {head : Option RefHead}
    (h : lastTip? projectId ref (ownExchanges client earlier) = some head) :
    ∃ reading ∈ earlier, IsLastReading client projectId ref earlier reading ∧
      reading.exchange.tip? projectId ref = some head := by
  induction earlier using List.reverseRecOn with
  | nil => cases h
  | append_singleton front last ih =>
      rw [ownExchanges_append] at h
      -- A last moment that is no reading of the client's leaves the reading before it.
      have hEarlier (hNone : last.client = client → last.exchange.tip? projectId ref = none)
          (hFront : lastTip? projectId ref (ownExchanges client front) = some head) :
          ∃ reading ∈ front ++ [last],
            IsLastReading client projectId ref (front ++ [last]) reading ∧
              reading.exchange.tip? projectId ref = some head := by
        obtain ⟨reading, hReading, ⟨past, between, hSplit, hOwn, hRead, hSince⟩, hTip⟩ := ih hFront
        refine ⟨reading, List.mem_append_left _ hReading, ⟨past, between ++ [last], ?_, hOwn, hRead,
          fun other hOther hClient => ?_⟩, hTip⟩
        · rw [hSplit, List.append_assoc, List.cons_append]
        · rcases List.mem_append.mp hOther with hOld | hNew
          · exact hSince other hOld hClient
          · rw [List.mem_singleton.mp hNew] at hClient ⊢
            exact hNone hClient
      by_cases hClient : last.client = client
      · subst hClient
        rw [ownExchanges_singleton_self, lastTip?_append_singleton] at h
        cases hTip : last.exchange.tip? projectId ref with
        | none =>
            rw [hTip] at h
            exact hEarlier (fun _ => hTip) h
        | some found =>
            rw [hTip] at h
            obtain rfl : found = head := Option.some.inj h
            refine ⟨last, List.mem_append_right _ (List.mem_singleton_self _),
              ⟨front, [], rfl, rfl, ?_, fun _ hNone => absurd hNone List.not_mem_nil⟩, hTip⟩
            rw [hTip]
            exact Option.some_ne_none _
      · rw [ownExchanges_singleton_of_ne hClient, List.append_nil] at h
        exact hEarlier (fun hOwn => absurd hOwn hClient) h

/-- A flat run never cancels a pipeline of the commit that it has read last as the tip of
the ref, however the creations, the tips and all other calls interleave.  So as long as the
tip stands as it was read, pipelines of the commit at the tip are safe. -/
theorem canceled_pipeline_is_not_of_read_tip
    (h : Interleaved Store.Calls (CreationRun.system store runs) history final)
    {earlier later : List (Moment κ)} {moment : Moment κ}
    (hSplit : history = earlier ++ moment :: later)
    (hFlat : ∀ project, store.projects.find? (runs moment.client).request.projectId = some project →
      (runs moment.client).rules.hierarchy project = false)
    {row : Pipeline} (hRow : row ∈ moment.before.pipelines.rows)
    (hCancels : moment.Cancels row.id) :
    ∃ reading, IsLastReading moment.client row.projectId row.ref earlier reading ∧
      headSha? reading.before row ≠ some row.sha := by
  obtain ⟨pipeline, hProject, -, project, head, windowStart, hFound, hTip, stored, hStored, hId,
    hQualifies⟩ := h.creation_selects hSplit hCancels
  obtain rfl := moment.before.pipelines.eq_of_key_eq hStored hRow hId
  have hMoment : moment ∈ history := by
    rw [hSplit]
    exact List.mem_append_right _ List.mem_cons_self
  rw [(h.keepsOrigins_before hMoment).projects, hProject] at hFound
  rw [Strategy.ofPolicy_resolve_flat (hFlat project hFound)] at hQualifies
  obtain ⟨-, hFits, -⟩ := hQualifies
  rw [← hFits.project, ← hFits.ref] at hTip
  obtain ⟨reading, hReading, hLast, hRead⟩ := exists_isLastReading hTip
  refine ⟨reading, hLast, ?_⟩
  have hOccurs := h.occurs reading (by rw [hSplit]; exact List.mem_append_left _ hReading)
  rw [headSha?, hOccurs.refs_of_tip? hRead]
  exact hFits.notHead

end Histories

/-! ## A tip that moves -/

/-- A ref on which nothing has been created. -/
def youngRef : Store :=
  Store.ofSnapshot { Snapshot.empty with
    projects := [⟨1, "group/app", true, none, []⟩]
    refs := [⟨1, "main", "commit 1", ""⟩] }

/-- A push to this ref, with the flat strategy. -/
def pushRun : CreationRun :=
  ⟨.fixed ⟨true, false⟩, .standard, ⟨1, "main", .push, 1, true, false, none⟩⟩

/-- Two pushes to the ref. -/
def pushRace : System fun _ : Bool => Except CreationError CreationResponse :=
  CreationRun.system youngRef fun _ : Bool => pushRun

/-- The first one creates its pipeline and reads the tip for its cancellation. -/
def raceOpening :
    List (Moment Bool) × System fun _ : Bool => Except CreationError CreationResponse :=
  pushRace.play ⟨604800, 0⟩ (List.replicate 8 true)

/-- Then the tip moves, and the second one creates a pipeline for it, which the first one
cancels. -/
def raceEnding :
    List (Moment Bool) × System fun _ : Bool => Except CreationError CreationResponse :=
  System.play ⟨604801, 0⟩ (List.replicate 4 false ++ List.replicate 4 true)
    ⟨raceOpening.2.store.setRefHead ⟨1, "main", "commit 2", ""⟩, raceOpening.2.rest⟩

def raceHistory : List (Moment Bool) := raceOpening.1 ++ raceEnding.1

/-- The cancellation. -/
def raceMoment : Moment Bool :=
  raceHistory.get ⟨15, by decide +kernel⟩

/-- The pipeline for the new tip. -/
def racedPipeline : Pipeline where
  id := 2
  projectId := 1
  ref := "main"
  sha := "commit 2"
  source := .push
  status := .created
  createdAt := ⟨604801, 0⟩
  parentId := none
  autoCanceledById := none
  lockVersion := 0

/-- Nobody else writes anything but tips of the ref. -/
theorem interleaved_race {foreign : Store → Store → Prop}
    (hForeign : ∀ store sha, foreign store (store.setRefHead ⟨1, "main", sha, ""⟩)) :
    Interleaved foreign pushRace raceHistory raceEnding.2 :=
  Interleaved.append (.write (interleaved_play foreign _ _ _) (hForeign _ _))
    (interleaved_play foreign _ _ _)

theorem raceHistory_split :
    raceHistory = raceHistory.take 15 ++ raceMoment :: raceHistory.drop 16 := by
  rw [raceMoment, List.get_eq_getElem, List.getElem_cons_drop, List.take_append_drop]

theorem cancels_raceMoment :
    racedPipeline ∈ raceMoment.before.pipelines.rows ∧ raceMoment.Cancels racedPipeline.id :=
  have hStored : racedPipeline ∈ raceMoment.before.pipelines.rows := by decide +kernel
  ⟨hStored, racedPipeline, hStored, rfl, by decide, racedPipeline.afterCancel 1,
    by decide +kernel, rfl, rfl⟩

theorem canceled_pipeline_is_not_of_read_tip_race :
    ∃ reading, IsLastReading raceMoment.client 1 "main" (raceHistory.take 15) reading ∧
      headSha? reading.before racedPipeline ≠ some "commit 2" :=
  have hRace : Interleaved Store.Calls (CreationRun.system youngRef fun _ : Bool => pushRun)
      raceHistory raceEnding.2 :=
    interleaved_race fun _ _ => ⟨.setRefHead _, rfl⟩
  canceled_pipeline_is_not_of_read_tip hRace raceHistory_split (fun _ _ => rfl)
    cancels_raceMoment.1 cancels_raceMoment.2

/-- Although only tips are written in between, a flat run cancels a pipeline of the commit
that is at the tip of its ref at this very moment. -/
theorem pipeline_of_tip_canceled_in_race :
    Interleaved (fun before after => ∃ sha, after = before.setRefHead ⟨1, "main", sha, ""⟩)
        (CreationRun.system youngRef fun _ : Bool => pushRun) raceHistory raceEnding.2 ∧
      raceMoment ∈ raceHistory ∧ racedPipeline ∈ raceMoment.before.pipelines.rows ∧
      raceMoment.Cancels racedPipeline.id ∧
      headSha? raceMoment.before racedPipeline = some racedPipeline.sha :=
  ⟨interleaved_race fun _ sha => ⟨sha, rfl⟩, List.get_mem _ _, cancels_raceMoment.1,
    cancels_raceMoment.2, by decide +kernel⟩

end PipelineUpkeep

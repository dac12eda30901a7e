import PipelineUpkeep.Proofs.RunFailures
/-!
# What a creation asks

The requests of a creation by what it returns, whatever it is answered.  It reads the
project and the tip of the ref; a request that is turned down for what was read there stores
one row or none; an accepted one stores one row and then only cancels on behalf of that row.
What the cancellation comes to does not matter for the answer.  Every store call that fails
before a row is stored ends the creation with an error, and nothing has been written then.
-/

namespace PipelineUpkeep

open Time

/-! ## Refusals -/

/-- Why a request is turned down, and the status of the row that may tell of it.  No row
tells of an unknown ref. -/
structure Refusal where
  message : String
  status : Option Status
  deriving DecidableEq, Repr

namespace CreationRequest

/-- Whether a request is turned down, by the project and the tip of the ref. -/
def refusal? (request : CreationRequest) (project : Project) : Option RefHead → Option Refusal
  | none => some ⟨"Reference not found", none⟩
  | some head =>
      match project.ciConfigError with
      | some reason => some ⟨reason, some .failed⟩
      | none =>
          if !request.ignoreSkipCi && head.requestsCiSkip then
            some ⟨"Pipeline skipped", some .skipped⟩
          else none

section Refusals

variable (request : CreationRequest) {project : Project} (head : RefHead)

theorem refusal?_of_reason {reason : String} (hReason : project.ciConfigError = some reason) :
    request.refusal? project (some head) = some ⟨reason, some .failed⟩ := by
  simp only [refusal?, hReason]

theorem refusal?_of_skip (hReason : project.ciConfigError = none)
    (hSkip : (!request.ignoreSkipCi && head.requestsCiSkip) = true) :
    request.refusal? project (some head) = some ⟨"Pipeline skipped", some .skipped⟩ := by
  simp only [refusal?, hReason, if_pos hSkip]

theorem refusal?_eq_none_iff :
    request.refusal? project (some head) = none ↔
      project.ciConfigError = none ∧ ¬(!request.ignoreSkipCi && head.requestsCiSkip) = true := by
  unfold refusal?
  cases project.ciConfigError <;> simp

end Refusals

/-- The status of the row that is stored for a refusal, if one is. -/
def savedStatus? (request : CreationRequest) (refusal : Refusal) : Option Status :=
  if request.saveOnErrors then refusal.status else none

/-- The requests for the project and the tip of the ref, and their answers. -/
def lookups (request : CreationRequest) (project : Project) (tip : Option RefHead) :
    List Exchange :=
  [⟨.store .engine (.project request.projectId), .ok (some project)⟩,
    ⟨.store .engine (.refHead project.id request.ref), .ok tip⟩]

end CreationRequest

/-! ## Exchanges that write -/

/-- The exchange is a write that was performed. -/
def Exchange.hasWritten : Exchange → Bool
  | ⟨.store _ call, .ok _⟩ => call.isWrite
  | _ => false

/-- Nothing has been written. -/
def Idle (made : List Exchange) : Prop :=
  ∀ exchange ∈ made, exchange.hasWritten = false

theorem Idle.nil : Idle [] := fun _ hNone => absurd hNone List.not_mem_nil

theorem Idle.add {made : List Exchange} (h : Idle made) {exchange : Exchange}
    (hExchange : exchange.hasWritten = false) : Idle (made ++ [exchange]) := by
  intro other hOther
  rcases List.mem_append.mp hOther with hOld | hNew
  · exact h other hOld
  · rw [List.mem_singleton.mp hNew]
    exact hExchange

namespace Store

variable {store : Store} {error : StoreError}

end Store

/-- The call that stores a row of a request. -/
def CreationRequest.insertion (request : CreationRequest) (head : RefHead) (status : Status)
    (now : Timestamp) (builds : List NewBuild) (row : Pipeline) : Exchange :=
  ⟨.store .engine (.createPipeline (request.newPipeline head status now builds)), .ok row⟩

/-- The requests of a creation, by what it returns. -/
inductive CreationTrace (request : CreationRequest) (made : List Exchange) :
    Except CreationError CreationResponse → Prop where
  | failed (error : CreationError) (hIdle : Idle made) : CreationTrace request made (.error error)
  | refused (project : Project) (tip : Option RefHead) (refusal : Refusal)
      (hLookups : request.lookups project tip <+: made)
      (hRefusal : request.refusal? project tip = some refusal)
      (hUnsaved : request.savedStatus? refusal = none) (hIdle : Idle made) :
      CreationTrace request made (.ok ⟨some refusal.message, none, none⟩)
  | saved (project : Project) (head : RefHead) (refusal : Refusal) (status : Status)
      (now : Timestamp) (row : Pipeline) (earlier later : List Exchange)
      (hMade : made = earlier ++ request.insertion head status now [] row :: later)
      (hLookups : request.lookups project (some head) <+: earlier)
      (hRefusal : request.refusal? project (some head) = some refusal)
      (hSaved : request.savedStatus? refusal = some status)
      (hEarlier : Idle earlier) (hLater : Idle later) :
      CreationTrace request made (.ok ⟨some refusal.message, some row, none⟩)
  | accepted (project : Project) (head : RefHead) (now : Timestamp) (row : Pipeline)
      (report : Option CancellationReport) (earlier later : List Exchange)
      (hMade : made = earlier ++ request.insertion head .created now project.newBuilds row :: later)
      (hLookups : request.lookups project (some head) <+: earlier)
      (hAccepted : request.refusal? project (some head) = none)
      (hEarlier : Idle earlier)
      (hLater : ∀ exchange ∈ later, exchange.asked.OnlyCancels row.id) :
      CreationTrace request made (.ok ⟨none, some row, report⟩)

/-- Clocks show some times, and everything else is answered in any way.  A fault needs a time
whose window starts out of range. -/
def creationTerms (times : Timestamp → Prop) (lookback : Int) : Contract :=
  .ofAnswers (Request.Shows times) (fun _ _ => True)
    fun _ => ∃ now, times now ∧ now.subSeconds? lookback = none

section Walk

variable {times : Timestamp → Prop} {lookback : Int} {request : CreationRequest}
  {project : Project} {past : List Exchange} {store : Store}

theorem ask_creationTerms (asked : Request) :
    (Program.ask asked).Fulfills (creationTerms times lookback)
      (fun later answer _ => later = past ++ [⟨asked, answer⟩]) past store :=
  (Program.answers_ask asked trivial).imp fun _ _ _ h => h.1

theorem rejectCreation_trace {head : RefHead} (refusal : Refusal) {status : Status}
    (hLookups : request.lookups project (some head) <+: past) (hIdle : Idle past)
    (hRefusal : request.refusal? project (some head) = some refusal)
    (hStatus : refusal.status = some status) :
    (rejectCreation request project head status refusal.message).Fulfills
      (creationTerms times lookback) (fun later result _ => CreationTrace request later result)
      past store := by
  have hSavedStatus : request.savedStatus? refusal =
      if request.saveOnErrors then some status else none := by
    rw [CreationRequest.savedStatus?, hStatus]
  unfold rejectCreation
  simp only
  split
  · rename_i hSave
    rw [if_pos hSave] at hSavedStatus
    refine (ask_creationTerms .clock).andThen ?_
    rintro _ now held rfl
    refine (ask_creationTerms (.store .engine (.createPipeline _))).andThen ?_
    rintro _ created held rfl
    have hTimed : Idle (past ++ [⟨.clock, now⟩]) := hIdle.add rfl
    match created with
    | .error error => exact Program.fulfills_pure fun _ _ => .failed _ (hTimed.add rfl)
    | .ok row =>
        refine (ask_creationTerms (.log _)).andThen ?_
        rintro _ answer held rfl
        refine Program.fulfills_pure fun _ _ => .saved project head refusal status now row
          (past ++ [⟨.clock, now⟩]) [⟨.log _, answer⟩] (List.append_assoc _ _ _)
          (hLookups.trans (List.prefix_append _ _)) hRefusal hSavedStatus hTimed (Idle.nil.add rfl)
  · rename_i hSave
    rw [if_neg hSave] at hSavedStatus
    refine (ask_creationTerms (.log _)).andThen ?_
    rintro _ answer held rfl
    exact Program.fulfills_pure fun _ _ => .refused project (some head) refusal
      (hLookups.trans (List.prefix_append _ _)) hRefusal hSavedStatus (hIdle.add rfl)

/-- A run that follows an insertion only cancels, and gives a report or none. -/
theorem cancelAfterCreation_trace (rules : PolicyRules) (settings : CancellationSettings)
    (row : Pipeline) :
    (cancelAfterCreation rules settings row).Fulfills (creationTerms times settings.lookback)
      (fun later _ _ => ∃ own, later = past ++ own ∧
        ∀ exchange ∈ own, exchange.asked.OnlyCancels row.id) past store := by
  have hTerms : (cancelRedundant rules settings row).Fulfills
      (runTerms times settings.lookback row.id) _ [] store :=
    cancelRedundant_keepsTerms rules settings row
  have hCancels := hTerms.onlyMakes (·.OnlyCancels row.id) (fun _ _ _ hPermits => hPermits.1)
    fun _ hNone => absurd hNone List.not_mem_nil
  have hRun := hCancels.since (creationTerms times settings.lookback) past (fun _ _ => id)
    (fun _ _ _ _ => id) (fun _ _ _ _ => trivial) (fun _ hFault => hFault.2)
  rw [List.append_nil] at hRun
  unfold cancelAfterCreation
  refine hRun.andThen ?_
  rintro _ result held ⟨own, rfl, hOwn, -⟩
  match result with
  | .ok report => exact Program.fulfills_pure fun _ _ => ⟨own, rfl, hOwn⟩
  | .error error =>
      refine (ask_creationTerms (.log _)).andThen ?_
      rintro _ answer held rfl
      refine Program.fulfills_pure fun _ _ => ⟨own ++ [⟨.log _, answer⟩],
        List.append_assoc _ _ _, fun exchange hExchange => ?_⟩
      rcases List.mem_append.mp hExchange with hOld | hNew
      · exact hOwn exchange hOld
      · rw [List.mem_singleton.mp hNew]
        trivial

/-- Whatever a creation is answered, its requests are as its result tells. -/
theorem createForRequest_trace (rules : PolicyRules) (settings : CancellationSettings)
    (request : CreationRequest) :
    (createForRequest rules settings request).Fulfills (creationTerms times settings.lookback)
      (fun later result _ => CreationTrace request later result) [] store := by
  unfold createForRequest
  refine (ask_creationTerms (.store .engine (.project _))).andThen ?_
  rintro _ found held rfl
  match found with
  | .error error => exact Program.fulfills_pure fun _ _ => .failed _ (Idle.nil.add rfl)
  | .ok none => exact Program.fulfills_pure fun _ _ => .failed _ (Idle.nil.add rfl)
  | .ok (some project) =>
      refine (ask_creationTerms (.store .engine (.refHead _ _))).andThen ?_
      rintro _ tip held rfl
      match tip with
      | .error error =>
          exact Program.fulfills_pure fun _ _ => .failed _ ((Idle.nil.add rfl).add rfl)
      | .ok none =>
          exact Program.fulfills_pure fun _ _ => .refused project none _ List.prefix_rfl rfl
            (ite_self _) ((Idle.nil.add rfl).add rfl)
      | .ok (some head) =>
          have hLooked : Idle (request.lookups project (some head)) := (Idle.nil.add rfl).add rfl
          simp only
          split
          · rename_i reason hReason
            have hRefusal := request.refusal?_of_reason head hReason
            exact rejectCreation_trace ⟨_, _⟩ List.prefix_rfl hLooked hRefusal rfl
          · rename_i hReason
            split
            · rename_i hSkip
              have hRefusal := request.refusal?_of_skip head hReason hSkip
              exact rejectCreation_trace ⟨_, _⟩ List.prefix_rfl hLooked hRefusal rfl
            · rename_i hSkip
              have hAccepted := (request.refusal?_eq_none_iff head).mpr ⟨hReason, hSkip⟩
              refine (ask_creationTerms .clock).andThen ?_
              rintro _ now held rfl
              have hTimed := hLooked.add (rfl : Exchange.hasWritten ⟨.clock, now⟩ = false)
              refine (ask_creationTerms (.store .engine (.createPipeline _))).andThen ?_
              rintro _ created held rfl
              match created with
              | .error error => exact Program.fulfills_pure fun _ _ => .failed _ (hTimed.add rfl)
              | .ok row =>
                  refine (ask_creationTerms (.log _)).andThen ?_
                  rintro _ answer held rfl
                  refine (cancelAfterCreation_trace rules settings row).andThen ?_
                  rintro _ report held ⟨own, rfl, hOwn⟩
                  refine Program.fulfills_pure fun _ _ => .accepted project head now row report
                    _ (⟨.log _, answer⟩ :: own) ?_ (List.prefix_append _ _) hAccepted hTimed ?_
                  · simp only [CreationRequest.lookups, CreationRequest.insertion,
                      List.cons_append, List.nil_append]
                  · rintro exchange (- | ⟨-, hExchange⟩)
                    · trivial
                    · exact hOwn exchange hExchange

end Walk

end PipelineUpkeep

import PipelineUpkeep.Proofs.CreationTrace
import PipelineUpkeep.Proofs.SharedContracts
import PipelineUpkeep.Proofs.StoredInstants
/-!
# Requests bring only instants that exist

Creations take the time of their pipeline from a clock, and whoever advances a schedule has
computed its next run from its expression.  So in a world whose clock shows instants that
exist, no creation, delivery or sweep brings another instant into the store, whatever fails,
whatever is answered, and in whichever order the deliveries of a sweep go on.
-/

namespace PipelineUpkeep

open Time

/-- The request ends this way in a world whose clock shows an instant that exists. -/
def Request.EndsDisturbed (asked : Request) (before : Store) (answer : asked.Answer)
    (after : Store) : Prop :=
  ∃ world : World, world.clock.IsValid ∧ world.store = before ∧
    (world.answer asked).1 = answer ∧ (world.answer asked).2.store = after

/-- Among any others, requests that bring only instants that exist. -/
def timelyShare : Share where
  rely _ _ := True
  refl _ := trivial
  trans _ _ := trivial
  allows _ asked := asked.IsTimely

/-- The terms of a program in any world of such instants. -/
def timelyTerms : Contract := timelyShare.contract Request.EndsDisturbed True

/-- What becomes of a program in a world that may be disturbed. -/
theorem Program.Fulfills.run_disturbed {α : Type} {share : Share} {mayFault : Prop}
    {post : List Exchange → α → Store → Prop} {program : Program α} {past : List Exchange}
    {world : World}
    (h : program.Fulfills (share.contract Request.EndsDisturbed mayFault) post past world.store)
    (hAllows : ∀ store asked, share.allows store asked → asked.IsTimely)
    (hClock : world.clock.IsValid) :
    (world.store.IsTimely → (program.run world).2.store.IsTimely) ∧
      (program.run world).2.clock = world.clock ∧
      ∀ value, (program.run world).1 = .ok value →
        ∃ made, post made value (program.run world).2.store := by
  induction program generalizing past world with
  | done value =>
      refine ⟨id, rfl, ?_⟩
      rintro _ ⟨⟩
      exact ⟨past, h world.store (share.refl _)⟩
  | crash fault => exact ⟨id, rfl, nofun⟩
  | request asked resume ih =>
      obtain ⟨hAllowed, hResume⟩ := h world.store (share.refl _)
      have hSame := world.clock_answer asked
      have hLater := hResume _ _ ⟨world, hClock, rfl, rfl, rfl⟩
      obtain ⟨hTimely, hStill, hPost⟩ := ih _ hLater (hSame ▸ hClock)
      exact ⟨fun hStore => hTimely (World.isTimely_answer hStore (hAllows _ _ hAllowed)),
        hStill.trans hSame, hPost⟩

section Walk

variable {past : List Exchange} {store : Store}

theorem ask_timely (asked : Request) (h : asked.IsTimely) :
    (Program.ask asked).Fulfills timelyTerms
      (fun _ answer _ => asked.Shows Timestamp.IsValid answer) past store := by
  refine (Program.fulfills_ask asked fun _ _ => h).imp ?_
  rintro _ _ _ ⟨-, _, _, -, ⟨world, hClock, -, rfl, -⟩, -⟩
  cases asked with
  | clock => exact hClock
  | _ => trivial

theorem pure_timely {α : Type} (value : α) :
    (pure value : Program α).Fulfills timelyTerms (fun _ _ _ => True) past store :=
  Program.fulfills_pure fun _ _ => trivial

theorem writeLog_timely (level : LogLevel) (message : String) :
    (Program.writeLog level message).Fulfills timelyTerms (fun _ _ _ => True) past store :=
  (ask_timely (.log _) trivial).imp fun _ _ _ _ => trivial

/-! ## Creations -/

/-- A cancellation reads, and cancels for its pipeline. -/
theorem Request.OnlyCancels.isTimely {asked : Request} {id : Nat} (h : asked.OnlyCancels id) :
    asked.IsTimely := by
  unfold IsTimely
  split
  · -- Of the calls that bring an instant along, a cancellation makes none.
    unfold StoreCall.IsTimely
    split
    · cases h
    · cases h
    · trivial
  · trivial

theorem cancelRedundant_timely (rules : PolicyRules) (settings : CancellationSettings)
    (pipeline : Pipeline) :
    (cancelRedundant rules settings pipeline).Fulfills timelyTerms (fun _ _ _ => True)
      past store := by
  have hRun : (cancelRedundant rules settings pipeline).Fulfills
      (runTerms (fun _ => True) settings.lookback pipeline.id) _ [] store :=
    cancelRedundant_keepsTerms rules settings pipeline
  have hOwn : (cancelRedundant rules settings pipeline).Fulfills timelyTerms _ [] store :=
    hRun.mono timelyTerms (fun _ _ => id) (fun asked _ answer _ _ => asked.shows_any answer)
      (fun _ _ _ hPermits => hPermits.1.isTimely) (fun _ _ => trivial)
  exact (hOwn.imp fun _ _ _ _ => trivial).anytime past

theorem cancelAfterCreation_timely (rules : PolicyRules) (settings : CancellationSettings)
    (pipeline : Pipeline) :
    (cancelAfterCreation rules settings pipeline).Fulfills timelyTerms (fun _ _ _ => True)
      past store := by
  unfold cancelAfterCreation
  refine (cancelRedundant_timely rules settings pipeline).andThen fun _ result _ _ => ?_
  match result with
  | .ok report => exact pure_timely _
  | .error error =>
      refine (writeLog_timely _ _).andThen fun _ _ _ _ => ?_
      exact pure_timely _

theorem rejectCreation_timely (request : CreationRequest) (project : Project) (head : RefHead)
    (status : Status) (message : String) :
    (rejectCreation request project head status message).Fulfills timelyTerms
      (fun _ _ _ => True) past store := by
  have hRefuse (pipeline : Option Pipeline) {past : List Exchange} {store : Store} :
      (do
        Program.warn
          s!"Pipeline for {request.ref}@{head.sha} in {project.path} not created: {message}"
        return .ok ⟨some message, pipeline, none⟩ :
        Program (Except CreationError CreationResponse)).Fulfills timelyTerms
        (fun _ _ _ => True) past store :=
    (writeLog_timely _ _).andThen fun _ _ _ _ => pure_timely _
  unfold rejectCreation
  simp only
  split
  · refine (ask_timely .clock trivial).andThen fun _ now _ hNow => ?_
    have hNew : (request.newPipeline head status now []).createdAt.IsValid := hNow
    refine (ask_timely (.store .engine (.createPipeline _)) hNew).andThen
      fun _ created _ _ => ?_
    match created with
    | .error error => exact pure_timely _
    | .ok row => exact hRefuse (some row)
  · exact hRefuse none

theorem createForRequest_timely (rules : PolicyRules) (settings : CancellationSettings)
    (request : CreationRequest) :
    (createForRequest rules settings request).Fulfills timelyTerms (fun _ _ _ => True)
      past store := by
  unfold createForRequest
  refine (ask_timely (.store .engine (.project _)) trivial).andThen fun _ found _ _ => ?_
  match found with
  | .error error => exact pure_timely _
  | .ok none => exact pure_timely _
  | .ok (some project) =>
      refine (ask_timely (.store .engine (.refHead ..)) trivial).andThen
        fun _ tip _ _ => ?_
      match tip with
      | .error error => exact pure_timely _
      | .ok none => exact pure_timely _
      | .ok (some head) =>
          simp only
          split
          · exact rejectCreation_timely _ _ _ _ _
          · split
            · exact rejectCreation_timely _ _ _ _ _
            · refine (ask_timely .clock trivial).andThen fun _ now _ hNow => ?_
              have hNew : (request.newPipeline head .created now
                  project.newBuilds).createdAt.IsValid := hNow
              refine (ask_timely (.store .engine (.createPipeline _)) hNew).andThen
                fun _ created _ _ => ?_
              match created with
              | .error error => exact pure_timely _
              | .ok row =>
                  refine (writeLog_timely _ _).andThen fun _ _ _ _ => ?_
                  refine (cancelAfterCreation_timely rules settings row).andThen fun _ _ _ _ => ?_
                  exact pure_timely _

/-! ## Deliveries -/

theorem reportFailure_timely (scheduleId : Nat) (message : String) :
    (reportFailure scheduleId message).Fulfills timelyTerms (fun _ _ _ => True) past store := by
  unfold reportFailure
  refine (ask_timely .countFailure trivial).andThen fun _ _ _ _ => ?_
  refine (writeLog_timely _ _).andThen fun _ _ _ _ => ?_
  refine (ask_timely (.track ..) trivial).andThen fun _ _ _ _ => ?_
  exact pure_timely _

theorem loadDelivery_timely (scheduleId userId : Nat) :
    (loadDelivery scheduleId userId).Fulfills timelyTerms (fun _ _ _ => True) past store := by
  unfold loadDelivery
  refine (ask_timely (.store .schedules (.schedule _)) trivial).andThen
    fun _ found _ _ => ?_
  match found with
  | .error error => exact pure_timely _
  | .ok none => exact pure_timely _
  | .ok (some schedule) =>
      refine (ask_timely (.store .worker (.project _)) trivial).andThen
        fun _ project _ _ => ?_
      match project with
      | .error error => exact pure_timely _
      | .ok none => exact pure_timely _
      | .ok (some project) =>
          refine (ask_timely (.store .schedules (.user _)) trivial).andThen
            fun _ user _ _ => ?_
          match user with
          | .error error => exact pure_timely _
          | .ok none => exact pure_timely _
          | .ok (some user) => exact pure_timely _

theorem claimSchedule_timely (schedule : Schedule) (now : Timestamp) :
    (claimSchedule schedule now).Fulfills timelyTerms (fun _ _ _ => True) past store := by
  unfold claimSchedule
  split
  · exact pure_timely _
  · rename_i next hNext
    have hValid : next.IsValid := schedule.isValid_of_nextRunAfter hNext
    refine (ask_timely (.store .schedules (.advanceNextRun ..)) hValid).andThen
      fun _ result _ _ => ?_
    match result with
    | .error error => exact pure_timely _
    | .ok won => exact pure_timely _

theorem fireSchedule_timely (context : DeliveryContext) (schedule : Schedule) (user : User) :
    (fireSchedule context schedule user).Fulfills timelyTerms (fun _ _ _ => True) past store := by
  unfold fireSchedule
  refine (ask_timely (.creation _) trivial).andThen fun _ _ _ _ => ?_
  refine (createForRequest_timely _ _ _).andThen fun _ created _ _ => ?_
  match created with
  | .error error => exact reportFailure_timely _ _
  | .ok response =>
      simp only
      split
      · refine (ask_timely (.store .schedules (.recordLastPipeline ..)) trivial).andThen
          fun _ noted _ _ => ?_
        match noted with
        | .ok () => exact pure_timely _
        | .error error =>
            refine (writeLog_timely _ _).andThen fun _ _ _ _ => ?_
            exact pure_timely _
      · refine (writeLog_timely _ _).andThen fun _ _ _ _ => ?_
        exact pure_timely _

theorem deliver_timely (context : DeliveryContext) (scheduleId userId : Nat)
    (nextRunScheduled : Bool) :
    (deliver context scheduleId userId nextRunScheduled).Fulfills timelyTerms
      (fun _ _ _ => True) past store := by
  unfold deliver
  refine (loadDelivery_timely scheduleId userId).andThen fun _ loaded _ _ => ?_
  match loaded with
  | .error error => exact reportFailure_timely _ _
  | .ok none =>
      refine (writeLog_timely _ _).andThen fun _ _ _ _ => ?_
      exact pure_timely _
  | .ok (some (schedule, project, user)) =>
      simp only
      split
      · refine (ask_timely .clock trivial).andThen fun _ now _ _ => ?_
        split
        · exact pure_timely _
        · refine (claimSchedule_timely schedule now).andThen fun _ claimed _ _ => ?_
          match claimed with
          | .error error => exact reportFailure_timely _ _
          | .ok false =>
              refine (writeLog_timely _ _).andThen fun _ _ _ _ => ?_
              exact pure_timely _
          | .ok true => exact fireSchedule_timely _ _ _
      · exact fireSchedule_timely _ _ _

end Walk

end PipelineUpkeep

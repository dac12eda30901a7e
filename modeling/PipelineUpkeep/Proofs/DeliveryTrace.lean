import PipelineUpkeep.Proofs.CreationTrace
import PipelineUpkeep.Proofs.NextInstant
import PipelineUpkeep.Schedule.Delivery
/-!
# What a delivery asks

The requests of a delivery, for any way to create pipelines and whatever it is answered.  It
asks for a pipeline at most once, and only when it is cleared to: it has loaded the schedule,
its project and the user, and unless its caller has claimed the schedule or the project does
not use the worker, it has won the schedule while it was due.  An unexpected error is
counted once and reported once, at the very end; every other outcome leaves no such trace.
-/

namespace PipelineUpkeep

open Time

/-! ## Deliveries by any creator -/

/-- A way to create pipelines. -/
def Creator : Type := CreationRequest → Program (Except CreationError CreationResponse)

/-- Ask a creator for the pipeline of a schedule. -/
def fireVia (create : Creator) (schedule : Schedule) (user : User) : Program DeliveryOutcome := do
  let request := CreationRequest.ofSchedule schedule user
  Program.ask (.creation request)
  match ← create request with
  | .error error => reportFailure schedule.id error.message
  | .ok response =>
      match response.pipeline with
      | some pipeline =>
          let result ← Program.recordLastPipeline schedule.id pipeline.id
          match result with
          | .error error =>
              Program.warn
                (s!"Failed to record pipeline {pipeline.id} on schedule {schedule.id}: " ++
                  error.message)
              return .created pipeline.id
          | .ok () => return .created pipeline.id
      | none =>
          let message := response.message.getD ""
          Program.info (creationFailureMessage schedule.id message)
          return .creationFailed message

/-- Deliver a schedule; `scheduleWorker` tells which projects use the worker. -/
def deliverVia (create : Creator) (scheduleWorker : Project → Bool) (scheduleId userId : Nat)
    (nextRunScheduled : Bool) : Program DeliveryOutcome := do
  match ← loadDelivery scheduleId userId with
  | .error error => reportFailure scheduleId (UpkeepError.store error).message
  | .ok none =>
      Program.debug s!"Schedule {scheduleId} or user {userId} not found, skipping"
      return .skipped
  | .ok (some (schedule, project, user)) =>
      if scheduleWorker project && !nextRunScheduled then
        let now ← Program.readClock
        if now < schedule.nextRunAt then return .notDue schedule.nextRunAt
        else
          match ← claimSchedule schedule now with
          | .error error => reportFailure schedule.id error.message
          | .ok false =>
              Program.info (s!"Schedule {schedule.id} was already fired for " ++
                s!"{schedule.nextRunAt.toSpaced}, skipping")
              return .alreadyClaimed
          | .ok true => fireVia create schedule user
      else fireVia create schedule user

/-- Deliveries create pipelines in the one way that there is. -/
theorem deliver_eq_deliverVia (context : DeliveryContext) (scheduleId userId : Nat)
    (nextRunScheduled : Bool) :
    deliver context scheduleId userId nextRunScheduled =
      deliverVia (createForRequest context.rules context.settings) context.rules.scheduleWorker
        scheduleId userId nextRunScheduled := rfl

/-! ## Quiet requests -/

/-- The request neither asks for a pipeline nor counts or reports an error. -/
def Request.isQuiet : Request → Bool
  | .countFailure | .track .. | .creation _ => false
  | _ => true

theorem Request.isQuiet_of_isEngineWork (asked : Request) (h : asked.isEngineWork = true) :
    asked.isQuiet = true := by
  cases asked with
  | countFailure | track | creation => cases h
  | _ => rfl

/-- All of the requests are quiet. -/
def Quiet (made : List Exchange) : Prop :=
  ∀ exchange ∈ made, exchange.asked.isQuiet = true

theorem Quiet.nil : Quiet [] := fun _ hNone => absurd hNone List.not_mem_nil

theorem Quiet.add {made : List Exchange} (h : Quiet made) (asked : Request)
    (answer : asked.Answer) (hQuiet : asked.isQuiet = true) :
    Quiet (made ++ [⟨asked, answer⟩]) := by
  intro other hOther
  rcases List.mem_append.mp hOther with hOld | hNew
  · exact h other hOld
  · rw [List.mem_singleton.mp hNew]
    exact hQuiet

/-! ## Traces -/

/-- The line of the log that tells of an unexpected error. -/
def failureEntry (scheduleId : Nat) (message : String) : LogEntry :=
  ⟨.error, false,
    s!"Failed to create a scheduled pipeline. schedule_id: {scheduleId} message: " ++ message⟩

/-- How an outcome is reported: an unexpected error is counted, logged and tracked. -/
inductive FailureReport (scheduleId : Nat) : DeliveryOutcome → List Exchange → Prop where
  | expected (outcome : DeliveryOutcome) (hExpected : ∀ message, outcome ≠ .errored message) :
      FailureReport scheduleId outcome []
  | errored (message : String) :
      FailureReport scheduleId (.errored message)
        [⟨.countFailure, ()⟩, ⟨.log (failureEntry scheduleId message), ()⟩,
          ⟨.track message scheduleId, ()⟩]

/-- The schedule, its project and the user have been loaded. -/
structure Loaded (scheduleId userId : Nat) (past : List Exchange) (row : Schedule)
    (project : Project) (user : User) : Prop where
  schedule : ⟨.store .schedules (.schedule scheduleId), .ok (some row)⟩ ∈ past
  project : ⟨.store .worker (.project row.projectId), .ok (some project)⟩ ∈ past
  user : ⟨.store .schedules (.user userId), .ok (some user)⟩ ∈ past
  id_eq : row.id = scheduleId

/-- The schedule was due at a time that the clock has shown, and was won. -/
def Won (past : List Exchange) (row : Schedule) : Prop :=
  ∃ now next, ⟨.clock, now⟩ ∈ past ∧ row.nextRunAt ≤ now ∧ now < next ∧
    row.nextRunAfter now = .ok next ∧
    ⟨.store .schedules (.advanceNextRun row.id row.nextRunAt next), .ok true⟩ ∈ past

/-- What a delivery knows when it asks for a pipeline. -/
def Cleared (scheduleWorker : Project → Bool) (scheduleId userId : Nat) (nextRunScheduled : Bool)
    (past : List Exchange) (request : CreationRequest) : Prop :=
  ∃ row project user, Loaded scheduleId userId past row project user ∧
    request = .ofSchedule row user ∧
    (scheduleWorker project = true → nextRunScheduled = false → Won past row)

/-- The requests of a delivery, by its outcome. -/
inductive DeliveryTrace (scheduleWorker : Project → Bool) (scheduleId userId : Nat)
    (nextRunScheduled : Bool) (made : List Exchange) (outcome : DeliveryOutcome) : Prop where
  | idle (before report : List Exchange) (hMade : made = before ++ report) (hBefore : Quiet before)
      (hReport : FailureReport scheduleId outcome report)
  | fired (before own report : List Exchange) (request : CreationRequest)
      (hMade : made = before ++ ⟨.creation request, ()⟩ :: own ++ report) (hBefore : Quiet before)
      (hCleared : Cleared scheduleWorker scheduleId userId nextRunScheduled before request)
      (hOwn : Quiet own) (hReport : FailureReport scheduleId outcome report)

/-- A schedule is found under its own identifier. -/
def Request.NamesOwn : (asked : Request) → asked.Answer → Prop
  | .store _ (.schedule id), .ok (some row) => row.id = id
  | _, _ => True

/-- Clocks show some times, schedules are found under their identifiers, and everything else
is answered in any way. -/
def deliveryTerms (times : Timestamp → Prop) : Contract :=
  .ofAnswers (fun asked answer => asked.Shows times answer ∧ asked.NamesOwn answer)
    (fun _ _ => True) fun _ => False

/-- The same for a creator, which makes quiet requests. -/
def creatorTerms (times : Timestamp → Prop) : Contract :=
  .ofAnswers (Request.Shows times) (fun _ asked => asked.isQuiet = true) fun _ => False

/-- The creator returns, and its requests are quiet, as long as clocks show these times. -/
def Creator.IsReliable (create : Creator) (times : Timestamp → Prop) : Prop :=
  ∀ request, (create request).Fulfills (creatorTerms times) (fun _ _ _ => True) [] default

/-- The creation of pipelines is reliable at times whose windows start in range. -/
theorem createForRequest_isReliable (rules : PolicyRules) (settings : CancellationSettings) :
    Creator.IsReliable (createForRequest rules settings)
      fun now => now.subSeconds? settings.lookback ≠ none := by
  intro request
  have hTrace : (createForRequest rules settings request).Fulfills
      (creationTerms (fun now => now.subSeconds? settings.lookback ≠ none) settings.lookback)
      _ [] default := createForRequest_trace rules settings request
  have hAsks := hTrace.asking (createForRequest_engineWork rules settings request)
  refine (hAsks.mono (creatorTerms _) (fun _ _ => id) (fun _ _ _ _ => id)
    (fun _ _ asked hPermits => asked.isQuiet_of_isEngineWork hPermits.2) ?_).imp
    fun _ _ _ _ => trivial
  rintro _ ⟨now, hRange, hNone⟩
  exact hRange hNone

section Walk

variable {times : Timestamp → Prop} {past : List Exchange} {store : Store} {scheduleId userId : Nat}

theorem ask_deliveryTerms (asked : Request) :
    (Program.ask asked).Fulfills (deliveryTerms times)
      (fun later answer _ => later = past ++ [⟨asked, answer⟩] ∧ asked.NamesOwn answer)
      past store :=
  (Program.answers_ask asked trivial).imp fun _ _ _ h => ⟨h.1, h.2.2⟩

theorem reportFailure_trace (message : String) :
    (reportFailure scheduleId message).Fulfills (deliveryTerms times)
      (fun later outcome _ => ∃ report, later = past ++ report ∧
        FailureReport scheduleId outcome report) past store := by
  unfold reportFailure
  refine (ask_deliveryTerms .countFailure).andThen ?_
  rintro _ ⟨⟩ _ ⟨rfl, -⟩
  refine (ask_deliveryTerms (.log (failureEntry scheduleId message))).andThen ?_
  rintro _ ⟨⟩ _ ⟨rfl, -⟩
  refine (ask_deliveryTerms (.track message scheduleId)).andThen ?_
  rintro _ ⟨⟩ _ ⟨rfl, -⟩
  refine Program.fulfills_pure fun _ _ => ⟨_, ?_, .errored message⟩
  simp only [List.append_assoc, List.cons_append, List.nil_append]

/-- What has been loaded, if everything was found. -/
theorem loadDelivery_trace :
    (loadDelivery scheduleId userId).Fulfills (deliveryTerms times)
      (fun later result _ => Quiet later ∧ ∀ row project user,
        result = .ok (some (row, project, user)) → Loaded scheduleId userId later row project user)
      [] store := by
  unfold loadDelivery
  refine (ask_deliveryTerms (.store .schedules (.schedule _))).andThen ?_
  rintro _ found _ ⟨rfl, hOwn⟩
  have hFound := Quiet.nil.add (.store .schedules (.schedule scheduleId)) found rfl
  match found with
  | .error _ | .ok none => exact Program.fulfills_pure fun _ _ => ⟨hFound, fun _ _ _ h => nomatch h⟩
  | .ok (some row) =>
      refine (ask_deliveryTerms (.store .worker (.project _))).andThen ?_
      rintro _ stored _ ⟨rfl, -⟩
      have hStored := hFound.add (.store .worker (.project row.projectId)) stored rfl
      match stored with
      | .error _ | .ok none =>
          exact Program.fulfills_pure fun _ _ => ⟨hStored, fun _ _ _ h => nomatch h⟩
      | .ok (some project) =>
          refine (ask_deliveryTerms (.store .schedules (.user _))).andThen ?_
          rintro _ known _ ⟨rfl, -⟩
          have hKnown := hStored.add (.store .schedules (.user userId)) known rfl
          match known with
          | .error _ | .ok none =>
              exact Program.fulfills_pure fun _ _ => ⟨hKnown, fun _ _ _ h => nomatch h⟩
          | .ok (some user) =>
              refine Program.fulfills_pure fun _ _ => ⟨hKnown, ?_⟩
              rintro _ _ _ ⟨⟩
              refine ⟨?_, ?_, ?_, hOwn⟩ <;> simp

theorem claimSchedule_trace (row : Schedule) (now : Timestamp) (hPast : Quiet past) :
    (claimSchedule row now).Fulfills (deliveryTerms times)
      (fun later result _ => Quiet later ∧ past <+: later ∧
        (result = .ok true → ∃ next, row.nextRunAfter now = .ok next ∧
          ⟨.store .schedules (.advanceNextRun row.id row.nextRunAt next), .ok true⟩ ∈ later))
      past store := by
  unfold claimSchedule
  cases hNext : row.nextRunAfter now with
  | error error => exact Program.fulfills_pure fun _ _ => ⟨hPast, List.prefix_rfl, nofun⟩
  | ok next =>
      refine (ask_deliveryTerms (.store .schedules (.advanceNextRun _ _ _))).andThen ?_
      rintro _ result _ ⟨rfl, -⟩
      have hAsked := hPast.add
        (.store .schedules (.advanceNextRun row.id row.nextRunAt next)) result rfl
      match result with
      | .error _ =>
          exact Program.fulfills_pure fun _ _ => ⟨hAsked, List.prefix_append _ _, nofun⟩
      | .ok won =>
          refine Program.fulfills_pure fun _ _ => ⟨hAsked, List.prefix_append _ _, ?_⟩
          rintro ⟨⟩
          exact ⟨next, rfl, List.mem_append_right _ (List.mem_singleton_self _)⟩

variable {create : Creator} {scheduleWorker : Project → Bool} {nextRunScheduled : Bool}

/-- A creator that is reliable stays so in the middle of a delivery. -/
theorem create_trace (hCreate : create.IsReliable times) (request : CreationRequest) :
    (create request).Fulfills (deliveryTerms times)
      (fun later _ _ => ∃ own, later = past ++ own ∧ Quiet own) past store := by
  have hQuiet := (hCreate request).onlyMakes (·.isQuiet = true) (fun _ _ _ => id) Quiet.nil
  have hOwn := hQuiet.since (deliveryTerms times) past (fun _ _ => id) (fun _ _ _ _ h => h.1)
    (fun _ _ _ _ => trivial) (fun _ => id)
  rw [List.append_nil] at hOwn
  have hHere : (create request).Fulfills (deliveryTerms times) _ past store := hOwn.after trivial
  refine hHere.imp ?_
  rintro _ _ _ ⟨own, rfl, hAll, -⟩
  exact ⟨own, rfl, hAll⟩

theorem fireVia_trace (hCreate : create.IsReliable times) {row : Schedule} {user : User}
    (hPast : Quiet past)
    (hCleared : Cleared scheduleWorker row.id userId nextRunScheduled past (.ofSchedule row user)) :
    (fireVia create row user).Fulfills (deliveryTerms times)
      (fun later outcome _ =>
        DeliveryTrace scheduleWorker row.id userId nextRunScheduled later outcome) past store := by
  unfold fireVia
  refine (ask_deliveryTerms (.creation _)).andThen ?_
  rintro _ ⟨⟩ _ ⟨rfl, -⟩
  refine (create_trace hCreate _).andThen ?_
  rintro _ result _ ⟨own, rfl, hOwn⟩
  match result with
  | .error error =>
      refine (reportFailure_trace _).imp ?_
      rintro _ outcome _ ⟨report, rfl, hReport⟩
      refine .fired past own report _ ?_ hPast hCleared hOwn hReport
      simp only [List.append_assoc, List.cons_append, List.nil_append]
  | .ok response =>
      -- Whatever follows is quiet.
      have hFired (outcome : DeliveryOutcome) (last : List Exchange) (hLast : Quiet last)
          (hExpected : ∀ message, outcome ≠ .errored message) :
          DeliveryTrace scheduleWorker row.id userId nextRunScheduled
            (past ++ [⟨.creation (.ofSchedule row user), ()⟩] ++ own ++ last) outcome := by
        refine .fired past (own ++ last) [] _ ?_ hPast hCleared ?_ (.expected outcome hExpected)
        · simp only [List.append_assoc, List.cons_append, List.nil_append, List.append_nil]
        · intro exchange hExchange
          exact (List.mem_append.mp hExchange).elim (hOwn exchange) (hLast exchange)
      simp only
      split
      · refine (ask_deliveryTerms (.store .schedules (.recordLastPipeline _ _))).andThen ?_
        rintro _ recorded _ ⟨rfl, -⟩
        have hRecorded := Quiet.nil.add (.store .schedules (.recordLastPipeline _ _)) recorded rfl
        match recorded with
        | .error error =>
            refine (ask_deliveryTerms (.log _)).andThen ?_
            rintro _ _ _ ⟨rfl, -⟩
            refine Program.fulfills_pure fun _ _ => ?_
            rw [List.append_assoc]
            exact hFired _ _ (hRecorded.add (.log _) () rfl) nofun
        | .ok () => exact Program.fulfills_pure fun _ _ => hFired _ _ hRecorded nofun
      · refine (ask_deliveryTerms (.log _)).andThen ?_
        rintro _ _ _ ⟨rfl, -⟩
        exact Program.fulfills_pure fun _ _ => hFired _ _ (Quiet.nil.add (.log _) () rfl) nofun

/-- Whatever a delivery is answered, its requests are as its outcome tells. -/
theorem deliverVia_trace (hCreate : create.IsReliable times) (scheduleId userId : Nat) :
    (deliverVia create scheduleWorker scheduleId userId nextRunScheduled).Fulfills
      (deliveryTerms times)
      (fun later outcome _ =>
        DeliveryTrace scheduleWorker scheduleId userId nextRunScheduled later outcome)
      [] store := by
  unfold deliverVia
  refine loadDelivery_trace.andThen ?_
  rintro past loaded _ ⟨hQuiet, hLoaded⟩
  have hFails (message : String) {later : List Exchange} {held : Store} (hLater : Quiet later) :
      (reportFailure scheduleId message).Fulfills (deliveryTerms times)
        (fun last outcome _ =>
          DeliveryTrace scheduleWorker scheduleId userId nextRunScheduled last outcome)
        later held := by
    refine (reportFailure_trace message).imp ?_
    rintro _ outcome _ ⟨report, rfl, hReport⟩
    exact .idle later report rfl hLater hReport
  have hIdle (outcome : DeliveryOutcome) {later : List Exchange} (hLater : Quiet later)
      (hExpected : ∀ message, outcome ≠ .errored message) :
      DeliveryTrace scheduleWorker scheduleId userId nextRunScheduled later outcome :=
    .idle later [] (List.append_nil _).symm hLater (.expected outcome hExpected)
  match loaded with
  | .error error => exact hFails _ hQuiet
  | .ok none =>
      refine (ask_deliveryTerms (.log _)).andThen ?_
      rintro _ _ _ ⟨rfl, -⟩
      exact Program.fulfills_pure fun _ _ => hIdle _ (hQuiet.add (.log _) () rfl) nofun
  | .ok (some (row, project, user)) =>
      have hAll := hLoaded row project user rfl
      obtain rfl : row.id = scheduleId := hAll.id_eq
      simp only
      split
      · refine (ask_deliveryTerms .clock).andThen ?_
        rintro _ now _ ⟨rfl, -⟩
        have hTimed := hQuiet.add .clock now rfl
        split
        · exact Program.fulfills_pure fun _ _ => hIdle _ hTimed nofun
        · rename_i hDue
          refine (claimSchedule_trace row now hTimed).andThen ?_
          rintro later claimed _ ⟨hLater, hPrefix, hWon⟩
          match claimed with
          | .error error => exact hFails _ hLater
          | .ok false =>
              refine (ask_deliveryTerms (.log _)).andThen ?_
              rintro _ _ _ ⟨rfl, -⟩
              exact Program.fulfills_pure fun _ _ => hIdle _ (hLater.add (.log _) () rfl) nofun
          | .ok true =>
              obtain ⟨next, hNext, hClaim⟩ := hWon rfl
              have hBefore := (List.prefix_append past _).trans hPrefix
              have hClock : ⟨.clock, now⟩ ∈ later :=
                hPrefix.subset (List.mem_append_right _ (List.mem_singleton_self _))
              exact fireVia_trace hCreate hLater ⟨row, project, user,
                ⟨hBefore.subset hAll.schedule, hBefore.subset hAll.project,
                  hBefore.subset hAll.user, rfl⟩, rfl, fun _ _ => ⟨now, next, hClock, hDue,
                  Schedule.lt_of_nextRunAfter hNext, hNext, hClaim⟩⟩
      · rename_i hUnclaimed
        refine fireVia_trace hCreate hQuiet
          ⟨row, project, user, hAll, rfl, fun hWorker hCaller => ?_⟩
        rw [hWorker, hCaller] at hUnclaimed
        exact absurd rfl hUnclaimed

end Walk

end PipelineUpkeep

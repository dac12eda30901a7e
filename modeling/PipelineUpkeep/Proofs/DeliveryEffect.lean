import PipelineUpkeep.Proofs.CreationEffect
import PipelineUpkeep.Proofs.DeliveryAccount
import PipelineUpkeep.Proofs.ScheduleClaims
import PipelineUpkeep.Proofs.ScheduleWrites
/-!
# Deliveries without other writers

In a world that nobody disturbs the outcome of a delivery tells what it has written: nothing,
a claim of the schedule at most, or one new pipeline of the schedule that the schedule
remembers.  A commit that asks to skip CI does not keep a schedule from firing.
-/

namespace PipelineUpkeep

open Time

/-! ## The effect of a delivery -/

/-- The schedule, its project and the user are stored. -/
structure Store.Loads (store : Store) (scheduleId userId : Nat) (row : Schedule)
    (project : Project) (user : User) : Prop where
  schedule : store.schedules.find? scheduleId = some row
  project : store.projects.find? row.projectId = some project
  user : store.users.find? userId = some user

theorem Store.Loads.id_eq {store : Store} {scheduleId userId : Nat} {row : Schedule}
    {project : Project} {user : User} (h : store.Loads scheduleId userId row project user) :
    row.id = scheduleId :=
  ((store.schedules.find?_eq_some_iff _ _).mp h.schedule).2

/-- The schedule is won, if the delivery has to win it. -/
def Store.Claims (before : Store) (row : Schedule) (clock : Timestamp) (mustClaim : Bool)
    (claimed : Store) : Prop :=
  match mustClaim with
  | true => row.nextRunAt ≤ clock ∧ ∃ next, row.nextRunAfter clock = .ok next ∧
      claimed = before.withNextRun row.id next
  | false => claimed = before

/-- The outcome of a delivery that has asked for a pipeline, and what it leaves. -/
inductive FireEffect (row : Schedule) (response : CreationResponse) (held : Store) :
    DeliveryOutcome → Store → Prop where
  | failed (hNone : response.pipeline = none) :
      FireEffect row response held (.creationFailed (response.message.getD "")) held
  | created (pipeline : Pipeline) (hSome : response.pipeline = some pipeline) :
      FireEffect row response held (.created pipeline.id)
        (held.withLastPipeline row.id pipeline.id)

/-- The outcome of a delivery and what it leaves, by the store and the clock. -/
inductive DeliveryEffect (scheduleWorker : Project → Bool) (scheduleId userId : Nat)
    (nextRunScheduled : Bool) (clock : Timestamp) (before : Store) :
    DeliveryOutcome → Store → Prop where
  | skipped (hMissing : ∀ row project user, ¬ before.Loads scheduleId userId row project user) :
      DeliveryEffect scheduleWorker scheduleId userId nextRunScheduled clock before .skipped before
  | notDue (row : Schedule) (project : Project) (user : User)
      (hLoads : before.Loads scheduleId userId row project user)
      (hClaims : (scheduleWorker project && !nextRunScheduled) = true)
      (hEarly : clock < row.nextRunAt) :
      DeliveryEffect scheduleWorker scheduleId userId nextRunScheduled clock before
        (.notDue row.nextRunAt) before
  | unclaimable (row : Schedule) (project : Project) (user : User) (error : UpkeepError)
      (hLoads : before.Loads scheduleId userId row project user)
      (hClaims : (scheduleWorker project && !nextRunScheduled) = true)
      (hError : row.nextRunAfter clock = .error error) :
      DeliveryEffect scheduleWorker scheduleId userId nextRunScheduled clock before
        (.errored error.message) before
  | fired (row : Schedule) (project : Project) (user : User) (claimed : Store)
      (response : CreationResponse) (held : Store) (outcome : DeliveryOutcome) (after : Store)
      (hLoads : before.Loads scheduleId userId row project user)
      (hClaims : before.Claims row clock (scheduleWorker project && !nextRunScheduled) claimed)
      (hCreation : CreationEffect (.ofSchedule row user) clock claimed (.ok response) held)
      (hFires : FireEffect row response held outcome after) :
      DeliveryEffect scheduleWorker scheduleId userId nextRunScheduled clock before outcome after

section Walk

variable {scheduleId userId : Nat} {clock : Timestamp} {store : Store} {past : List Exchange}

theorem loadDelivery_alone :
    (loadDelivery scheduleId userId).Fulfills (.alone clock)
      (fun _ result held => held = store ∧
        ((result = .ok none ∧
            ∀ row project user, ¬ store.Loads scheduleId userId row project user) ∨
          ∃ row project user, result = .ok (some (row, project, user)) ∧
            store.Loads scheduleId userId row project user)) past store := by
  unfold loadDelivery
  refine (Program.callStore_alone .schedules (.schedule _)).andThen ?_
  rintro _ found held hFound
  obtain ⟨rfl, rfl⟩ := Prod.mk.inj hFound
  cases hRow : store.schedules.find? scheduleId with
  | none =>
      refine Program.pure_alone ⟨rfl, Or.inl ⟨rfl, fun row project user hLoads => ?_⟩⟩
      cases hRow.symm.trans hLoads.schedule
  | some row =>
      refine (Program.callStore_alone .worker (.project _)).andThen ?_
      rintro _ stored held hStored
      obtain ⟨rfl, rfl⟩ := Prod.mk.inj hStored
      cases hProject : store.projects.find? row.projectId with
      | none =>
          refine Program.pure_alone ⟨rfl, Or.inl ⟨rfl, fun other project user hLoads => ?_⟩⟩
          obtain rfl := Option.some.inj (hRow.symm.trans hLoads.schedule)
          cases hProject.symm.trans hLoads.project
      | some project =>
          refine (Program.callStore_alone .schedules (.user _)).andThen ?_
          rintro _ known held hKnown
          obtain ⟨rfl, rfl⟩ := Prod.mk.inj hKnown
          cases hUser : store.users.find? userId with
          | none =>
              refine Program.pure_alone ⟨rfl, Or.inl ⟨rfl, fun other _ user hLoads => ?_⟩⟩
              cases hUser.symm.trans hLoads.user
          | some user =>
              exact Program.pure_alone
                ⟨rfl, Or.inr ⟨row, project, user, rfl, hRow, hProject, hUser⟩⟩

theorem reportFailure_alone (message : String) :
    (reportFailure scheduleId message).Fulfills (.alone clock)
      (fun _ outcome held => outcome = .errored message ∧ held = store) past store := by
  unfold reportFailure
  refine (Program.ask_alone .countFailure).andThen ?_
  rintro _ _ _ ⟨rfl, -⟩
  refine (Program.writeLog_alone _ _).andThen ?_
  rintro _ _ _ rfl
  refine (Program.ask_alone (.track _ _)).andThen ?_
  rintro _ _ _ ⟨rfl, -⟩
  exact Program.pure_alone ⟨rfl, rfl⟩

/-- A stored schedule is won unless it has no next run. -/
theorem claimSchedule_alone {row : Schedule} (now : Timestamp)
    (hRow : store.schedules.find? row.id = some row) :
    (claimSchedule row now).Fulfills (.alone clock)
      (fun _ result held =>
        (∃ error, row.nextRunAfter now = .error error ∧ result = .error error ∧ held = store) ∨
          ∃ next, row.nextRunAfter now = .ok next ∧ result = .ok true ∧
            held = store.withNextRun row.id next) past store := by
  unfold claimSchedule
  cases hNext : row.nextRunAfter now with
  | error error =>
      exact Program.pure_alone (Or.inl ⟨error, rfl, rfl, rfl⟩)
  | ok next =>
      refine (Program.callStore_alone .schedules (.advanceNextRun _ _ _)).andThen ?_
      rintro _ won claimed hWon
      have hCall : store.advanceNextRun row.id row.nextRunAt next = (won, claimed) := hWon
      rw [Store.advanceNextRun_of_find? hRow] at hCall
      obtain ⟨rfl, rfl⟩ := Prod.mk.inj hCall
      exact Program.pure_alone (Or.inr ⟨next, rfl, rfl, rfl⟩)

theorem fireSchedule_alone (context : DeliveryContext) {row stored : Schedule}
    {project : Project} (user : User) (hStored : store.schedules.find? row.id = some stored)
    (hProject : store.projects.find? row.projectId = some project)
    (hWindow : clock.subSeconds? context.settings.lookback ≠ none) :
    (fireSchedule context row user).Fulfills (.alone clock)
      (fun _ outcome after => ∃ response held,
        CreationEffect (.ofSchedule row user) clock store (.ok response) held ∧
          FireEffect row response held outcome after) past store := by
  unfold fireSchedule
  refine (Program.ask_alone (.creation _)).andThen ?_
  rintro _ _ _ ⟨rfl, -⟩
  refine (createForRequest_alone context.rules _ hWindow).andThen ?_
  rintro _ result held hCreation
  match result with
  | .error error =>
      -- The project is stored, so nothing is missing.
      cases hCreation with
      | missing hMissing => cases hProject.symm.trans hMissing
  | .ok response =>
      simp only
      cases hPipeline : response.pipeline with
      | some pipeline =>
          refine (Program.callStore_alone .schedules (.recordLastPipeline _ _)).andThen ?_
          rintro _ recorded after hRecorded
          have hRow : held.schedules.find? row.id = some stored := by
            rw [hCreation.schedules_eq]
            exact hStored
          have hCall : held.recordLastPipeline row.id pipeline.id = (recorded, after) := hRecorded
          rw [Store.recordLastPipeline_of_find? hRow] at hCall
          obtain ⟨rfl, rfl⟩ := Prod.mk.inj hCall
          exact Program.pure_alone ⟨response, held, hCreation, .created pipeline hPipeline⟩
      | none =>
          refine (Program.writeLog_alone _ _).andThen ?_
          rintro _ _ _ rfl
          exact Program.pure_alone ⟨response, _, hCreation, .failed hPipeline⟩

/-- Alone with the store, a delivery has its effect, if the window starts in range. -/
theorem deliver_alone (context : DeliveryContext) (scheduleId userId : Nat)
    (nextRunScheduled : Bool) (hWindow : clock.subSeconds? context.settings.lookback ≠ none) :
    (deliver context scheduleId userId nextRunScheduled).Fulfills (.alone clock)
      (fun _ outcome after => DeliveryEffect context.rules.scheduleWorker scheduleId userId
        nextRunScheduled clock store outcome after) past store := by
  unfold deliver
  refine loadDelivery_alone.andThen ?_
  rintro _ _ start ⟨rfl, (⟨rfl, hMissing⟩ | ⟨row, project, user, rfl, hLoads⟩)⟩
  · refine (Program.writeLog_alone _ _).andThen ?_
    rintro _ _ _ rfl
    exact Program.pure_alone (.skipped hMissing)
  · obtain rfl : row.id = scheduleId := hLoads.id_eq
    simp only
    split
    · rename_i hClaims
      refine Program.readClock_alone.andThen ?_
      rintro _ now start ⟨rfl, rfl⟩
      split
      · rename_i hEarly
        exact Program.pure_alone (.notDue row project user hLoads hClaims hEarly)
      · rename_i hDue
        refine (claimSchedule_alone _ hLoads.schedule).andThen ?_
        rintro _ _ _ (⟨error, hError, rfl, rfl⟩ | ⟨next, hNext, rfl, rfl⟩)
        · refine (reportFailure_alone _).imp ?_
          rintro _ _ _ ⟨rfl, rfl⟩
          exact .unclaimable row project user error hLoads hClaims hError
        · have hWon : start.Claims row now (context.rules.scheduleWorker project &&
              !nextRunScheduled) (start.withNextRun row.id next) := by
            rw [hClaims]
            exact ⟨hDue, next, hNext, rfl⟩
          have hStored := Store.find?_withNextRun_self hLoads.schedule next
          refine (fireSchedule_alone context user hStored hLoads.project hWindow).imp ?_
          rintro _ outcome after ⟨response, held, hCreation, hFires⟩
          exact .fired row project user _ response held outcome after hLoads hWon hCreation hFires
    · rename_i hClaims
      have hWon : start.Claims row clock (context.rules.scheduleWorker project &&
          !nextRunScheduled) start := by
        rw [Bool.eq_false_iff.mpr hClaims]
        exact rfl
      refine (fireSchedule_alone context user hLoads.schedule hLoads.project hWindow).imp ?_
      rintro _ outcome after ⟨response, held, hCreation, hFires⟩
      exact .fired row project user _ response held outcome after hLoads hWon hCreation hFires

end Walk

/-! ## What is left -/

/-- Nothing has been asked for. -/
def DeliveryOutcome.isIdle : DeliveryOutcome → Bool
  | .skipped | .notDue _ | .alreadyClaimed | .errored _ => true
  | .created _ | .creationFailed _ => false

/-- What a delivery leaves of a store, by its outcome. -/
structure DeliveryLeaves (scheduleWorker : Project → Bool) (scheduleId userId : Nat)
    (nextRunScheduled : Bool) (clock : Timestamp) (before : Store) (outcome : DeliveryOutcome)
    (after : Store) : Prop where
  idle : outcome.isIdle = true → after = before
  /-- Nothing but the claim of the schedule is written for a request that is turned down. -/
  failed : ∀ message, outcome = .creationFailed message →
    after = before ∨ ∃ next, after = before.withNextRun scheduleId next
  /-- One pipeline has come, at the tip of the schedule's ref, and the schedule remembers it. -/
  created : ∀ id, outcome = .created id → ∃ row head new,
    before.schedules.find? scheduleId = some row ∧
      before.refs.find? row.projectId row.ref = some head ∧
      new.source = .schedule ∧ new.projectId = row.projectId ∧ new.ref = row.ref ∧
      new.sha = head.sha ∧ (before.createPipeline new).1.id = id ∧ before.Gains new after ∧
      (∃ next, after.schedules.find? scheduleId =
        some { row with nextRunAt := next, lastPipelineId := some id }) ∧
      ∀ other, other ≠ scheduleId → after.schedules.find? other = before.schedules.find? other
  /-- A delivery that comes to ask for a pipeline gets it if the ref has a tip and the CI
  configuration can be processed, whatever the message of the commit asks for. -/
  fires : ∀ row project user head, before.Loads scheduleId userId row project user →
    before.refs.find? row.projectId row.ref = some head → project.ciConfigError = none →
    ((scheduleWorker project && !nextRunScheduled) = true →
      row.nextRunAt ≤ clock ∧ ∃ next, row.nextRunAfter clock = .ok next) →
    ∃ id, outcome = .created id

section Effects

variable {scheduleWorker : Project → Bool} {scheduleId userId : Nat} {nextRunScheduled : Bool}
  {clock : Timestamp} {before claimed held after : Store} {row : Schedule} {mustClaim : Bool}
  {outcome : DeliveryOutcome}

theorem Store.Claims.eq_or (h : before.Claims row clock mustClaim claimed) :
    claimed = before ∨ ∃ next, claimed = before.withNextRun row.id next := by
  cases mustClaim with
  | true =>
      obtain ⟨-, next, -, hClaimed⟩ := h
      exact Or.inr ⟨next, hClaimed⟩
  | false => exact Or.inl h

/-- A claim concerns no pipelines. -/
theorem Store.Claims.gains {new : NewPipeline} (h : before.Claims row clock mustClaim claimed)
    (hGains : claimed.Gains new held) (pipelineId : Nat) :
    before.Gains new (held.withLastPipeline row.id pipelineId) ∧
      (claimed.createPipeline new).1 = (before.createPipeline new).1 := by
  rcases h.eq_or with rfl | ⟨next, rfl⟩
  · exact ⟨⟨hGains.pipelines, hGains.builds, hGains.projects, hGains.users, hGains.refs⟩, rfl⟩
  · exact ⟨⟨hGains.pipelines, hGains.builds, hGains.projects, hGains.users, hGains.refs⟩, rfl⟩

theorem Store.Claims.projects_eq (h : before.Claims row clock mustClaim claimed) :
    claimed.projects = before.projects ∧ claimed.refs = before.refs := by
  rcases h.eq_or with rfl | ⟨next, rfl⟩ <;> exact ⟨rfl, rfl⟩

/-- The schedule has been claimed or not, and remembers its pipeline. -/
theorem Store.Claims.find?_withLastPipeline (h : before.Claims row clock mustClaim claimed)
    (hRow : before.schedules.find? row.id = some row) (hHeld : held.schedules = claimed.schedules)
    (pipelineId : Nat) :
    (∃ next, (held.withLastPipeline row.id pipelineId).schedules.find? row.id =
        some { row with nextRunAt := next, lastPipelineId := some pipelineId }) ∧
      ∀ other, other ≠ row.id → (held.withLastPipeline row.id pipelineId).schedules.find? other =
        before.schedules.find? other := by
  have hOther (other : Nat) (hNe : other ≠ row.id) :
      claimed.schedules.find? other = before.schedules.find? other := by
    rcases h.eq_or with rfl | ⟨next, rfl⟩
    · rfl
    · rw [find?_withNextRun]
      simp only [if_neg hNe, Option.map_id']
  have hStored : ∃ next, held.schedules.find? row.id = some { row with nextRunAt := next } := by
    rw [hHeld]
    rcases h.eq_or with rfl | ⟨next, rfl⟩
    · exact ⟨row.nextRunAt, hRow⟩
    · exact ⟨next, find?_withNextRun_self hRow next⟩
  obtain ⟨next, hNext⟩ := hStored
  refine ⟨⟨next, find?_withLastPipeline_self hNext pipelineId⟩, fun other hNe => ?_⟩
  rw [Store.find?_withLastPipeline, hHeld, ← hOther other hNe]
  simp only [if_neg hNe, Option.map_id']

/-- The request of a schedule is turned down for its ref or the CI configuration only. -/
theorem refusal?_ofSchedule {project : Project} (user : User) (head : RefHead)
    (hConfig : project.ciConfigError = none) :
    (CreationRequest.ofSchedule row user).refusal? project (some head) = none := by
  simp only [CreationRequest.refusal?, hConfig, CreationRequest.ofSchedule, Bool.not_true,
    Bool.false_and, Bool.false_eq_true, if_false]

theorem DeliveryEffect.leaves
    (h : DeliveryEffect scheduleWorker scheduleId userId nextRunScheduled clock before outcome
      after) :
    DeliveryLeaves scheduleWorker scheduleId userId nextRunScheduled clock before outcome
      after := by
  cases h with
  | skipped hMissing =>
      exact ⟨fun _ => rfl, nofun, nofun, fun row project user head hLoads =>
        absurd hLoads (hMissing row project user)⟩
  | notDue row project user hLoads hClaims hEarly =>
      refine ⟨fun _ => rfl, nofun, nofun, fun other stored known head hOther _ _ hClaim => ?_⟩
      obtain rfl := Option.some.inj (hLoads.schedule.symm.trans hOther.schedule)
      obtain rfl := Option.some.inj (hLoads.project.symm.trans hOther.project)
      exact absurd hEarly (hClaim hClaims).1
  | unclaimable row project user error hLoads hClaims hError =>
      refine ⟨fun _ => rfl, nofun, nofun, fun other stored known head hOther _ _ hClaim => ?_⟩
      obtain rfl := Option.some.inj (hLoads.schedule.symm.trans hOther.schedule)
      obtain rfl := Option.some.inj (hLoads.project.symm.trans hOther.project)
      obtain ⟨-, next, hNext⟩ := hClaim hClaims
      cases hError.symm.trans hNext
  | fired row project user claimed response held _ _ hLoads hClaims hCreation hFires =>
      obtain rfl : row.id = scheduleId := hLoads.id_eq
      obtain ⟨hProjects, hRefs⟩ := hClaims.projects_eq
      cases hFires with
      | failed hNone =>
          obtain ⟨hHeld, found, refusal, hProject, hRefusal⟩ :=
            hCreation.of_pipeline_eq_none hNone
          refine ⟨nofun, fun _ _ => hHeld ▸ hClaims.eq_or, nofun, ?_⟩
          intro other stored known head hOther hTip hConfig _
          obtain rfl := Option.some.inj (hLoads.schedule.symm.trans hOther.schedule)
          rw [hProjects] at hProject
          obtain rfl := Option.some.inj (hOther.project.symm.trans hProject)
          have hId : stored.id = row.projectId :=
            ((before.projects.find?_eq_some_iff _ _).mp hProject).2
          have hRefused : (CreationRequest.ofSchedule row user).refusal? stored (some head) =
              some refusal := by
            rw [← hRefusal, hRefs, ← hTip, ← hId]
            rfl
          cases (refusal?_ofSchedule user head hConfig).symm.trans hRefused
      | created pipeline hSome =>
          obtain ⟨found, head, hProject, hTip, rfl, hGains⟩ :=
            hCreation.of_pipeline_eq_some hSome rfl
          obtain ⟨hAll, hPipeline⟩ := hClaims.gains hGains _
          obtain ⟨hRow, hOthers⟩ :=
            hClaims.find?_withLastPipeline hLoads.schedule hCreation.schedules_eq _
          have hId : found.id = row.projectId :=
            ((claimed.projects.find?_eq_some_iff _ _).mp hProject).2
          refine ⟨nofun, nofun, ?_, fun _ _ _ _ _ _ _ _ => ⟨_, rfl⟩⟩
          rintro _ ⟨⟩
          refine ⟨row, head, _, hLoads.schedule, ?_, rfl, rfl, rfl, rfl, ?_, hAll, hRow, hOthers⟩
          · rw [← hRefs, ← hId]
            exact hTip
          · rw [hPipeline]

end Effects

/-- A delivery has an outcome, which tells of errors exactly if one has occurred, and asks for
a pipeline only when cleared to, with any reliable creator.  Without other writers the
outcome also tells what has been written. -/
theorem delivery_keeps_its_contract (scheduleId userId : Nat) (nextRunScheduled : Bool) :
    (∀ (create : Creator) (times : Timestamp → Prop) (scheduleWorker : Project → Bool),
      create.IsReliable times → ∀ circumstances : Circumstances, circumstances.Honest →
        circumstances.Show times →
        DeliveryAccount scheduleWorker scheduleId userId nextRunScheduled
          ((deliverVia create scheduleWorker scheduleId userId nextRunScheduled).runAmid
            circumstances []).2
          ((deliverVia create scheduleWorker scheduleId userId nextRunScheduled).runAmid
            circumstances []).1) ∧
      ∀ context : DeliveryContext,
        (∀ circumstances : Circumstances, circumstances.Honest →
          circumstances.Show (fun now => now.subSeconds? context.settings.lookback ≠ none) →
          DeliveryAccount context.rules.scheduleWorker scheduleId userId nextRunScheduled
            ((deliver context scheduleId userId nextRunScheduled).runAmid circumstances []).2
            ((deliver context scheduleId userId nextRunScheduled).runAmid circumstances []).1) ∧
        ∀ world : World, world.disturbance = .none →
          world.clock.subSeconds? context.settings.lookback ≠ none →
          ∃ outcome, ((deliver context scheduleId userId nextRunScheduled).run world).1 =
              .ok outcome ∧
            DeliveryLeaves context.rules.scheduleWorker scheduleId userId nextRunScheduled
              world.clock world.store outcome
              ((deliver context scheduleId userId nextRunScheduled).run world).2.store := by
  have hAccount (create : Creator) (times : Timestamp → Prop) (scheduleWorker : Project → Bool)
      (hCreate : create.IsReliable times) (circumstances : Circumstances)
      (hHonest : circumstances.Honest) (hClocks : circumstances.Show times) :
      DeliveryAccount scheduleWorker scheduleId userId nextRunScheduled
        ((deliverVia create scheduleWorker scheduleId userId nextRunScheduled).runAmid
          circumstances []).2
        ((deliverVia create scheduleWorker scheduleId userId nextRunScheduled).runAmid
          circumstances []).1 :=
    deliverVia_account hCreate (Program.reaches_runAmid .start) hHonest.ends_runAmid
      (circumstances.forall_runAmid hClocks.shows fun _ hNone => absurd hNone List.not_mem_nil)
  refine ⟨hAccount, fun context => ⟨?_, fun world hQuiet hWindow => ?_⟩⟩
  · intro circumstances hHonest hClocks
    rw [deliver_eq_deliverVia]
    exact hAccount _ _ _ (createForRequest_isReliable _ _) circumstances hHonest hClocks
  · have hAlone : (deliver context scheduleId userId nextRunScheduled).Fulfills
        (.alone world.clock)
        (fun _ outcome after => DeliveryEffect context.rules.scheduleWorker scheduleId userId
          nextRunScheduled world.clock world.store outcome after) [] world.store :=
      deliver_alone context scheduleId userId nextRunScheduled hWindow
    obtain ⟨outcome, -, hOutcome, -, -, hEffect⟩ := hAlone.run_alone hQuiet
    exact ⟨outcome, hOutcome, hEffect.leaves⟩

/-- A schedule of every noon for a ref whose commit asks to skip CI. -/
def quietRefStore : Store :=
  Store.ofSnapshot { Snapshot.empty with
    projects := [⟨1, "group/app", true, none, []⟩]
    users := [⟨1, "ada"⟩]
    refs := [⟨1, "main", "commit 1", "Fix a typo [skip ci]"⟩]
    schedules := [noonSchedule] }

/-- A creator that always fails. -/
def brokenCreator : Creator := fun request => pure (.error (.projectNotFound request.projectId))

/-- A delivery at noon by the broken creator. -/
def brokenDelivery : Except Fault DeliveryOutcome × List (Moment Unit) :=
  (deliverVia brokenCreator (fun _ => true) 1 1 false).runAmid
    (.failingFrom 100 quietRefStore ⟨43200, 0⟩) []

/-- A world of its own for this store, at noon. -/
def quietWorld : World := World.start quietRefStore ⟨43200, 0⟩

/-- What deliveries in this world work with. -/
def quietContext : DeliveryContext := ⟨.fixed ⟨true, false⟩, .standard⟩

theorem delivery_keeps_its_contract_noon :
    brokenDelivery.1.toOption = some (.errored "Project 1 not found") ∧
      DeliveryAccount (fun _ => true) 1 1 false brokenDelivery.2 brokenDelivery.1 ∧
      ((deliver quietContext 1 1 false).run quietWorld).1.toOption = some (.created 1) ∧
      ∃ outcome, ((deliver quietContext 1 1 false).run quietWorld).1 = .ok outcome ∧
        DeliveryLeaves quietContext.rules.scheduleWorker 1 1 false quietWorld.clock
          quietWorld.store outcome ((deliver quietContext 1 1 false).run quietWorld).2.store := by
  obtain ⟨hAny, hOwn⟩ := delivery_keeps_its_contract 1 1 false
  have hReliable : brokenCreator.IsReliable fun _ => True := fun _ =>
    Program.fulfills_pure fun _ _ => trivial
  exact ⟨by decide +kernel,
    hAny brokenCreator _ _ hReliable _ (Circumstances.honest_failingFrom _ _ _) fun _ => trivial,
    by decide +kernel, (hOwn quietContext).2 quietWorld rfl (by decide)⟩

end PipelineUpkeep

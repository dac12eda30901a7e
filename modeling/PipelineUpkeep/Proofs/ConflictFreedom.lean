import PipelineUpkeep.Proofs.RunFailures
import PipelineUpkeep.Proofs.ScheduleClaims
import PipelineUpkeep.Proofs.SharedContracts
import PipelineUpkeep.Proofs.TipRaces
/-!
# The store has no conflicts of its own

Runs, creations, deliveries and sweeps work on one store, call by call, in any order.  A run
cancels rows as it has read them, and by then another run may have canceled them and raised
their versions.  That is no conflict: the status of a row is looked at before its version,
and nothing raises the version of a row but what also ends it.  So no cancellation fails, no
run starts over, and every run that has looked for candidates completes in its first
attempt.

Nothing here needs a bound on the number of clients, and others may call the store as well.
-/

namespace PipelineUpkeep

open Time

/-- Who works on the store. -/
inductive UpkeepClient where
  | cancellation (run : CancellationRun)
  | creation (run : CreationRun)
  | delivery (context : DeliveryContext) (scheduleId userId : Nat) (nextRunScheduled : Bool)
  /-- A sweep whose deliveries make their requests in a given order. -/
  | sweep (context : DeliveryContext) (now : Timestamp) (order : List Nat)

/-- The program of a run. -/
def CancellationRun.program (run : CancellationRun) :
    Program (Except UpkeepError CancellationReport) :=
  cancelRedundant run.rules run.settings run.initiator

namespace UpkeepClient

def Outcome : UpkeepClient → Type
  | cancellation _ => Except UpkeepError CancellationReport
  | creation _ => Except CreationError CreationResponse
  | delivery .. => DeliveryOutcome
  | sweep .. => Except UpkeepError (List SweepEntry)

def program : (client : UpkeepClient) → Program client.Outcome
  | cancellation run => run.program
  | creation run => createForRequest run.rules run.settings run.request
  | delivery context scheduleId userId nextRunScheduled =>
      deliver context scheduleId userId nextRunScheduled
  | sweep context now order => sweepInOrder context now order

/-- The clients before anyone has made a request. -/
def system {κ : Type} (store : Store) (clients : κ → UpkeepClient) :
    System fun client : κ => (clients client).Outcome where
  store := store
  rest client := (clients client).program

end UpkeepClient

/-! ## Calm programs -/

/-- The request neither cancels nor pauses. -/
def Request.isPlain : Request → Bool
  | .store _ (.cancelRunning ..) | .sleep _ => false
  | _ => true

/-- Cancellations are made of rows that they cannot fail on, and there are no pauses. -/
def Request.IsCalm (store : Store) : Request → Prop
  | .store _ (.cancelRunning row _) => sharedScope.admits store row
  | .sleep _ => False
  | _ => True

/-- The share of a calm program among callers of the store. -/
def calmShare : Share where
  rely := Store.Evolves
  refl := Store.Evolves.refl
  trans := Store.Evolves.trans
  allows := Request.IsCalm

/-- What a calm program keeps to; where its runs look for candidates is not its concern. -/
def calmContract : Contract := calmShare.contract Request.Occurs True

/-- The program is calm at any time, whatever it has exchanged. -/
def Program.IsCalm {α : Type} (program : Program α) : Prop :=
  ∀ past store, program.Fulfills calmContract (fun _ _ _ => True) past store

namespace Program

variable {α β : Type}

theorem isCalm_pure (value : α) : (pure value : Program α).IsCalm :=
  fun _ _ => fulfills_pure fun _ _ => trivial

theorem IsCalm.bind {program : Program α} {next : α → Program β} (h : program.IsCalm)
    (hNext : ∀ value, (next value).IsCalm) : (program >>= next).IsCalm :=
  fun past store => (h past store).andThen fun later value held _ => hNext value later held

theorem OnlyAsks.isCalm {program : Program α} (h : program.OnlyAsks Request.isPlain) :
    program.IsCalm := by
  intro past store
  induction program generalizing past store with
  | done value => exact fun _ _ => trivial
  | crash fault => trivial
  | request asked resume ih =>
      obtain ⟨hPlain, hRest⟩ := h
      refine fun before _ => ⟨?_, fun answer after _ => ih answer (hRest answer) _ after⟩
      cases asked with
      | store access call => cases call <;> first | exact hPlain.elim | trivial
      | sleep span => cases hPlain
      | _ => trivial

theorem isCalm_ask (asked : Request) (h : asked.isPlain = true) : (ask asked).IsCalm :=
  (onlyAsks_ask h).isCalm

end Program

open Program

/-- A cancellation that cannot fail does not. -/
theorem Request.Occurs.error?_cancelRunning {access : Access} {row : Pipeline}
    {request : CancelRequest} {answer : Except StoreError CancelOutcome} {before after : Store}
    (h : Request.Occurs (.store access (.cancelRunning row request)) before answer after)
    (hAdmits : sharedScope.admits before row) :
    Exchange.error? ⟨.store access (.cancelRunning row request), answer⟩ = none := by
  have hAnswer : (before.cancelRunning row request).1 = answer := congrArg Prod.fst h
  match answer with
  | .ok outcome => rfl
  | .error error => exact (sharedScope.fails_of_admits hAdmits hAnswer).elim

/-- Calm requests of a run are answered without an error. -/
theorem Request.Occurs.error?_eq_none {asked : Request} {answer : asked.Answer}
    {before after : Store} {id : Nat} (h : asked.Occurs before answer after)
    (hCalm : asked.IsCalm before) (hCancels : asked.OnlyCancels id) :
    Exchange.error? ⟨asked, answer⟩ = none := by
  cases asked with
  | store access call =>
      have hAnswer : (call.perform before).1 = answer := congrArg Prod.fst h
      cases call with
      | cancelRunning row request => exact h.error?_cancelRunning hCalm
      | createPipeline | setRefHead | advanceNextRun | recordLastPipeline => cases hCancels
      | _ =>
          rw [← hAnswer]
          rfl
  | _ => rfl

theorem not_hasFailed_append {past : List Exchange} (h : ¬ HasFailed past) {exchange : Exchange}
    (hError : exchange.error? = none) : ¬ HasFailed (past ++ [exchange]) := by
  rintro ⟨other, hOther, hFails⟩
  rcases List.mem_append.mp hOther with hOld | hNew
  · exact h ⟨other, hOld, hFails⟩
  · rw [List.mem_singleton.mp hNew] at hFails
    exact hFails hError

/-- Nothing fails for a run, so it never pauses. -/
theorem cancelRedundant_isCalm (rules : PolicyRules) (settings : CancellationSettings)
    (pipeline : Pipeline) : (cancelRedundant rules settings pipeline).IsCalm := by
  intro past store
  have hScope := cancelRedundant_follows_sharedScope ⟨rules, settings, pipeline⟩ store
  have hTerms : (cancelRedundant rules settings pipeline).Fulfills
      (runTerms (fun _ => True) settings.lookback pipeline.id) _ [] store :=
    cancelRedundant_keepsTerms rules settings pipeline
  -- Pauses are left to runs for which something has failed.
  have hBoth := hScope.both hTerms
    { calmContract with
      permits := fun past before asked =>
        sharedScope.permits pipeline past before asked ∧
          asked.OnlyCancels pipeline.id ∧ ∀ span, asked = .sleep span → HasFailed past }
    (fun _ _ hOthers => ⟨hOthers, trivial⟩) (fun _ _ _ => And.intro)
    (fun _ _ asked answer _ _ _ hOccurs => ⟨hOccurs, asked.shows_any answer⟩)
    (fun _ _ _ => trivial)
  have hCalm {exchanges : List Exchange} {before : Store} {asked : Request}
      (hSmooth : ¬ HasFailed exchanges)
      (hPermits : sharedScope.permits pipeline exchanges before asked ∧
        asked.OnlyCancels pipeline.id ∧ ∀ span, asked = .sleep span → HasFailed exchanges) :
      asked.IsCalm before := by
    obtain ⟨hScope, -, hPauses⟩ := hPermits
    cases asked with
    | store access call => cases call <;> first | exact hScope.2.1 | trivial
    | sleep span => exact hSmooth (hPauses span rfl)
    | _ => trivial
  have hAlways := hBoth.knowing calmContract (fun exchanges _ => ¬ HasFailed exchanges)
    (fun ⟨_, hNone, _⟩ => List.not_mem_nil hNone) (fun _ _ => id) (fun _ _ _ _ => id)
    (fun _ _ _ => hCalm)
    (fun _ _ _ _ _ hSmooth hPermits hOccurs => ⟨hOccurs, not_hasFailed_append hSmooth
      (hOccurs.error?_eq_none (hCalm hSmooth hPermits) hPermits.2.1)⟩)
    (fun _ _ _ => id)
  exact (hAlways.imp fun _ _ _ _ => trivial).anytime past

/-! ## Everything is calm -/

theorem reportFailure_isPlain (scheduleId : Nat) (message : String) :
    (reportFailure scheduleId message).OnlyAsks Request.isPlain := by
  unfold reportFailure
  refine (onlyAsks_ask rfl).bind fun _ => (onlyAsks_ask rfl).bind fun _ => ?_
  exact (onlyAsks_ask rfl).bind fun _ => trivial

theorem writeLog_isPlain (level : LogLevel) (message : String) :
    (writeLog level message).OnlyAsks Request.isPlain := onlyAsks_ask rfl

theorem rejectCreation_isPlain (request : CreationRequest) (project : Project) (head : RefHead)
    (status : Status) (message : String) :
    (rejectCreation request project head status message).OnlyAsks Request.isPlain := by
  unfold rejectCreation
  simp only
  split
  · refine (onlyAsks_ask rfl).bind fun now => (onlyAsks_ask rfl).bind fun created => ?_
    match created with
    | .error _ => trivial
    | .ok _ => exact (writeLog_isPlain _ _).bind fun _ => trivial
  · exact (writeLog_isPlain _ _).bind fun _ => trivial

theorem createForRequest_isCalm (rules : PolicyRules) (settings : CancellationSettings)
    (request : CreationRequest) : (createForRequest rules settings request).IsCalm := by
  unfold createForRequest
  refine (isCalm_ask (.store .engine (.project _)) rfl).bind fun found => ?_
  match found with
  | .error _ | .ok none => exact isCalm_pure _
  | .ok (some project) =>
      refine (isCalm_ask (.store .engine (.refHead _ _)) rfl).bind fun tip => ?_
      match tip with
      | .error _ | .ok none => exact isCalm_pure _
      | .ok (some head) =>
          simp only
          split
          · exact (rejectCreation_isPlain _ _ _ _ _).isCalm
          · split
            · exact (rejectCreation_isPlain _ _ _ _ _).isCalm
            · refine (isCalm_ask .clock rfl).bind fun now => ?_
              refine (isCalm_ask (.store .engine (.createPipeline _)) rfl).bind fun created => ?_
              match created with
              | .error _ => exact isCalm_pure _
              | .ok pipeline =>
                  refine (isCalm_ask (.log _) rfl).bind fun _ => ?_
                  unfold cancelAfterCreation
                  refine IsCalm.bind ?_ fun _ => isCalm_pure _
                  refine (cancelRedundant_isCalm rules settings pipeline).bind fun result => ?_
                  match result with
                  | .ok _ => exact isCalm_pure _
                  | .error _ => exact (isCalm_ask (.log _) rfl).bind fun _ => isCalm_pure _

theorem fireSchedule_isCalm (context : DeliveryContext) (schedule : Schedule) (user : User) :
    (fireSchedule context schedule user).IsCalm := by
  unfold fireSchedule
  refine (isCalm_ask (.creation _) rfl).bind fun _ => ?_
  refine (createForRequest_isCalm _ _ _).bind fun created => ?_
  match created with
  | .error _ => exact (reportFailure_isPlain _ _).isCalm
  | .ok response =>
      simp only
      split
      · refine (isCalm_ask (.store .schedules (.recordLastPipeline _ _)) rfl).bind fun noted => ?_
        match noted with
        | .error _ => exact (isCalm_ask (.log _) rfl).bind fun _ => isCalm_pure _
        | .ok () => exact isCalm_pure _
      · exact (isCalm_ask (.log _) rfl).bind fun _ => isCalm_pure _

theorem loadDelivery_isPlain (scheduleId userId : Nat) :
    (loadDelivery scheduleId userId).OnlyAsks Request.isPlain := by
  unfold loadDelivery
  refine (onlyAsks_ask rfl).bind fun schedule => ?_
  match schedule with
  | .error _ | .ok none => trivial
  | .ok (some schedule) =>
      refine (onlyAsks_ask rfl).bind fun project => ?_
      match project with
      | .error _ | .ok none => trivial
      | .ok (some project) =>
          refine (onlyAsks_ask rfl).bind fun user => ?_
          match user with
          | .error _ | .ok none => trivial
          | .ok (some _) => trivial

theorem claimSchedule_isPlain (schedule : Schedule) (now : Timestamp) :
    (claimSchedule schedule now).OnlyAsks Request.isPlain := by
  unfold claimSchedule
  split
  · trivial
  · refine (onlyAsks_ask rfl).bind fun won => ?_
    match won with
    | .error _ | .ok _ => trivial

theorem deliver_isCalm (context : DeliveryContext) (scheduleId userId : Nat)
    (nextRunScheduled : Bool) :
    (deliver context scheduleId userId nextRunScheduled).IsCalm := by
  unfold deliver
  refine (loadDelivery_isPlain scheduleId userId).isCalm.bind fun loaded => ?_
  match loaded with
  | .error _ => exact (reportFailure_isPlain _ _).isCalm
  | .ok none => exact (isCalm_ask (.log _) rfl).bind fun _ => isCalm_pure _
  | .ok (some (schedule, project, user)) =>
      simp only
      split
      · refine (isCalm_ask .clock rfl).bind fun now => ?_
        split
        · exact isCalm_pure _
        · refine (claimSchedule_isPlain schedule now).isCalm.bind fun claimed => ?_
          match claimed with
          | .error _ => exact (reportFailure_isPlain _ _).isCalm
          | .ok false => exact (isCalm_ask (.log _) rfl).bind fun _ => isCalm_pure _
          | .ok true => exact fireSchedule_isCalm _ _ _
      · exact fireSchedule_isCalm _ _ _

theorem claimEach_isPlain (now : Timestamp) (schedules : List Schedule) :
    (claimEach now schedules).OnlyAsks Request.isPlain := by
  induction schedules with
  | nil => trivial
  | cons schedule rest ih =>
      have hClaim : (claimDue now schedule).OnlyAsks Request.isPlain := by
        unfold claimDue
        split
        · exact (writeLog_isPlain _ _).bind fun _ => trivial
        · refine (onlyAsks_ask rfl).bind fun won => ?_
          match won with
          | .ok true => trivial
          | .ok false | .error _ => exact (writeLog_isPlain _ _).bind fun _ => trivial
      unfold claimEach
      exact hClaim.bind fun _ => ih.bind fun _ => trivial

/-- Calm programs are calm side by side. -/
theorem sideBySide_isCalm {α : Type} (order : List Nat) {programs : List (Program α)}
    (h : ∀ program ∈ programs, program.IsCalm) : (sideBySide order programs).IsCalm := by
  intro past store
  have hAgree : Agree (fun _ => calmShare) calmShare Request.Occurs :=
    ⟨fun _ _ _ => id, fun _ _ _ => id, fun _ _ _ _ _ _ _ _ hOccurs => hOccurs.evolves⟩
  have hAll : (sideBySide order programs).Fulfills calmContract
      (fun _ => AllAchieve (fun _ _ _ => True) programs.length) past store :=
    sideBySide_fulfills hAgree order fun i program hProgram =>
      h program (List.mem_of_getElem? hProgram) [] store
  exact hAll.imp fun _ _ _ _ => trivial

theorem sweepInOrder_isCalm (context : DeliveryContext) (now : Timestamp) (order : List Nat) :
    (sweepInOrder context now order).IsCalm := by
  have hClaims : (claimAllDue now).OnlyAsks Request.isPlain := by
    unfold claimAllDue
    refine (onlyAsks_ask rfl).bind fun due => ?_
    match due with
    | .error _ => trivial
    | .ok schedules => exact (claimEach_isPlain now schedules).bind fun _ => trivial
  unfold sweepInOrder
  refine hClaims.isCalm.bind fun claimed => ?_
  match claimed with
  | .error _ => exact isCalm_pure _
  | .ok schedules =>
      refine IsCalm.bind (sideBySide_isCalm order ?_) fun entries => ?_
      · intro program hProgram
        obtain ⟨schedule, -, rfl⟩ := List.mem_map.mp hProgram
        exact (deliver_isCalm _ _ _ _).bind fun _ => isCalm_pure _
      · refine IsCalm.bind ?_ fun _ => isCalm_pure _
        unfold closeSweep
        split
        · exact (isCalm_ask (.log _) rfl).bind fun _ => isCalm_pure _
        · exact isCalm_pure _

theorem UpkeepClient.program_isCalm (client : UpkeepClient) : client.program.IsCalm := by
  cases client with
  | cancellation run => exact cancelRedundant_isCalm _ _ _
  | creation run => exact createForRequest_isCalm _ _ _
  | delivery context scheduleId userId nextRunScheduled => exact deliver_isCalm _ _ _ _
  | sweep context now order => exact sweepInOrder_isCalm _ _ _

/-! ## Histories without conflicts -/

/-- The program makes no further request. -/
def Program.HasEnded {α : Type} : Program α → Prop
  | .request _ _ => False
  | _ => True

/-- What holds of clients, of a history of theirs, and of where it has led. -/
structure ConflictFree {κ : Type} [DecidableEq κ] (clients : κ → UpkeepClient)
    (history : List (Moment κ)) (final : System fun client : κ => (clients client).Outcome) :
    Prop where
  /-- No cancellation fails, by a conflict or in another way. -/
  cancels : ∀ moment ∈ history, ∀ access row request,
    moment.exchange.asked = .store access (.cancelRunning row request) →
      moment.exchange.error? = none
  /-- Nobody pauses to start over. -/
  restarts : ∀ moment ∈ history, ∀ span, moment.exchange.asked ≠ .sleep span
  /-- A run whose exchanges are among those of a client has completed in its first attempt,
  if it has come to its end and has looked for candidates. -/
  completes : ∀ (client : κ) (run : CancellationRun) made result,
    made.Sublist (ownExchanges client history) → run.program.Reaches made (.done result) →
      HasLooked made → ∃ strategy summary,
        result = .ok ⟨run.initiator.id, .completed, some strategy, summary⟩ ∧ summary.attempts = 1
  /-- No such run is abandoned. -/
  persists : ∀ (client : κ) (run : CancellationRun) made report,
    made.Sublist (ownExchanges client history) → run.program.Reaches made (.done (.ok report)) →
      ∀ attempts, report.outcome ≠ .abandoned attempts
  /-- A fault comes before a run has looked for candidates. -/
  faults : ∀ (client : κ) (run : CancellationRun) made fault,
    made.Sublist (ownExchanges client history) → run.program.Reaches made (.crash fault) →
      ¬ HasLooked made
  /-- However the clients go on, one that always gets another turn comes to its end. -/
  ends : ∀ (client : κ) (course : Nat → System fun client : κ => (clients client).Outcome)
    (made : Nat → List (Moment κ)), course 0 = final →
    (∀ n, Interleaved Store.Calls (course n) (made n) (course (n + 1))) →
    (∀ n, ¬ ((course n).rest client).HasEnded →
      ∃ later, n ≤ later ∧ ∃ moment ∈ made later, moment.client = client) →
    ∃ n, ((course n).rest client).HasEnded

section Histories

variable {κ : Type} [DecidableEq κ] {clients : κ → UpkeepClient} {store : Store}
  {history : List (Moment κ)} {final : System fun client : κ => (clients client).Outcome}

theorem Interleaved.isCalm_moments
    (h : Interleaved Store.Calls (UpkeepClient.system store clients) history final) :
    ∀ moment ∈ history, moment.exchange.asked.IsCalm moment.before := by
  intro moment hMoment
  obtain ⟨earlier, later, rfl⟩ := List.append_of_mem hMoment
  exact h.permits_among_calls ((clients moment.client).program_isCalm [] store)
    (fun _ _ hCalls => hCalls.evolves) (fun _ _ _ _ => id)

/-- No store call of a run has failed. -/
theorem Interleaved.not_hasFailed
    (h : Interleaved Store.Calls (UpkeepClient.system store clients) history final)
    {client : κ} {run : CancellationRun} {made : List Exchange}
    {rest : Program (Except UpkeepError CancellationReport)}
    (hMade : made.Sublist (ownExchanges client history))
    (hReaches : run.program.Reaches made rest) :
    ¬ HasFailed made := by
  rintro ⟨exchange, hExchange, hError⟩
  have hTerms : run.program.Fulfills
      (runTerms (fun _ => True) run.settings.lookback run.initiator.id) _ [] store :=
    cancelRedundant_keepsTerms run.rules run.settings run.initiator
  obtain ⟨earlier, hCancels, -⟩ := hTerms.permits_of_reaches hReaches
    (fun exchange _ => exchange.asked.shows_any _) exchange hExchange
  obtain ⟨moment, hMoment, -, rfl⟩ := mem_ownExchanges_iff.mp (hMade.subset hExchange)
  exact hError ((h.occurs moment hMoment).error?_eq_none (h.isCalm_moments moment hMoment) hCancels)

/-- What is left of a run keeps to its terms. -/
theorem rest_keepsTerms {run : CancellationRun} {made : List Exchange}
    {rest : Program (Except UpkeepError CancellationReport)}
    (hReaches : run.program.Reaches made rest) :
    rest.Fulfills (runTerms (fun _ => True) run.settings.lookback run.initiator.id)
      (fun later result _ => HasFailed later ∨ SmoothEnd run.initiator later result) made default :=
  (cancelRedundant_keepsTerms run.rules run.settings run.initiator).reaches hReaches
    fun exchange _ => exchange.asked.shows_any _

theorem exists_interleaved_course {α : κ → Type} {foreign : Store → Store → Prop}
    {course : Nat → System α} {made : Nat → List (Moment κ)}
    (hCourse : ∀ n, Interleaved foreign (course n) (made n) (course (n + 1))) {first last : Nat}
    (hOrder : first ≤ last) :
    ∃ history, Interleaved foreign (course first) history (course last) := by
  induction last, hOrder using Nat.le_induction with
  | base => exact ⟨[], .start⟩
  | succ last _ ih =>
      obtain ⟨history, hHistory⟩ := ih
      exact ⟨_, hHistory.append (hCourse last)⟩

/-- A client that always gets another turn comes to its end. -/
theorem exists_hasEnded {α : κ → Type} {foreign : Store → Store → Prop} {client : κ}
    {course : Nat → System α} {made : Nat → List (Moment κ)}
    (hCourse : ∀ n, Interleaved foreign (course n) (made n) (course (n + 1)))
    (hTurns : ∀ n, ¬ ((course n).rest client).HasEnded →
      ∃ later, n ≤ later ∧ ∃ moment ∈ made later, moment.client = client) :
    ∃ n, ((course n).rest client).HasEnded := by
  -- Each further turn leads to a rest of what the client has still to do.
  suffices hAll : ∀ (program : Program (α client)) n, (course n).rest client = program →
      ∃ m, ((course m).rest client).HasEnded from hAll _ 0 rfl
  intro program
  induction program using Program.Reaches.wellFounded.induction with
  | _ program ih =>
      intro n hProgram
      by_cases hEnded : ((course n).rest client).HasEnded
      · exact ⟨n, hEnded⟩
      · obtain ⟨later, hLater, moment, hMoment, hClient⟩ := hTurns n hEnded
        obtain ⟨between, hBetween⟩ := exists_interleaved_course hCourse hLater
        have hReaches := (hBetween.append (hCourse later)).reaches client
        rw [hProgram, ownExchanges_append] at hReaches
        refine ih _ ⟨_, fun hNone => ?_, hReaches⟩ (later + 1) rfl
        have hOwn := mem_ownExchanges_iff.mpr ⟨moment, hMoment, hClient, rfl⟩
        rw [(List.append_eq_nil_iff.mp hNone).2] at hOwn
        cases hOwn

/-- Conflicts do not arise, whoever works on the store, and in whatever order. -/
theorem upkeep_is_conflict_free
    (h : Interleaved Store.Calls (UpkeepClient.system store clients) history final) :
    ConflictFree clients history final where
  cancels moment hMoment access row request hAsked := by
    have hOccurs := h.occurs moment hMoment
    have hCalm := h.isCalm_moments moment hMoment
    obtain ⟨client, ⟨asked, answer⟩, before, after⟩ := moment
    obtain rfl : asked = _ := hAsked
    exact hOccurs.error?_cancelRunning hCalm
  restarts moment hMoment span hAsked := by
    have hCalm := h.isCalm_moments moment hMoment
    rw [hAsked] at hCalm
    exact hCalm
  completes client run made result hMade hReaches hLooked := by
    rcases rest_keepsTerms hReaches default trivial with hFailed | hEnd
    · exact absurd hFailed (h.not_hasFailed hMade hReaches)
    · cases hEnd with
      | skipped _ hNot => exact absurd hLooked hNot
      | missing hNot _ => exact absurd hLooked hNot
      | completed strategy summary hAttempts => exact ⟨strategy, summary, rfl, hAttempts⟩
  persists client run made report hMade hReaches attempts := by
    rcases rest_keepsTerms hReaches default trivial with hFailed | hEnd
    · exact absurd hFailed (h.not_hasFailed hMade hReaches)
    · cases hEnd with
      | skipped _ _ => exact nofun
      | completed _ _ _ => exact nofun
  faults client run made fault _ hReaches := by
    obtain ⟨hNot, -⟩ := rest_keepsTerms hReaches
    exact hNot
  ends client course made _ hCourse hTurns := exists_hasEnded hCourse hTurns

end Histories

/-- A ref with two running pipelines, and a schedule that is due. -/
def busyStore : Store :=
  Store.ofSnapshot { Snapshot.empty with
    projects := [⟨1, "group/app", true, none, []⟩]
    users := [⟨1, "ada"⟩]
    refs := [⟨1, "main", "commit 9", ""⟩]
    pipelines := [pushedPipeline 1, pushedPipeline 2]
    schedules := [noonSchedule] }

/-- A run for the second pipeline, a push, and a delivery and a sweep of the schedule. -/
def busyClients : Fin 4 → UpkeepClient
  | 0 => .cancellation ⟨.fixed ⟨true, false⟩, .standard, pushedPipeline 2⟩
  | 1 => .creation pushRun
  | 2 => .delivery ⟨.fixed ⟨true, false⟩, .standard⟩ 1 1 false
  | 3 => .sweep ⟨.fixed ⟨true, false⟩, .standard⟩ ⟨604800, 0⟩ []

/-- All of them, taking turns up to their ends; the push is a few steps ahead. -/
def busyRace : List (Moment (Fin 4)) × System fun client => (busyClients client).Outcome :=
  (UpkeepClient.system busyStore busyClients).play ⟨604800, 0⟩
    ([1, 1, 1] ++ (List.replicate 40 [0, 1, 2, 3]).flatten)

/-- The pipeline that the exchange was to cancel. -/
def Exchange.cancelTarget? : Exchange → Option Nat
  | ⟨.store _ (.cancelRunning row _), _⟩ => some row.id
  | _ => none

/-- Two clients come to cancel the first pipeline; the one that comes second finds it
canceled, and goes on. -/
theorem upkeep_is_conflict_free_busyRace :
    (allExchanges busyRace.1).filterMap Exchange.cancelTarget? = [1, 1, 2] ∧
      canceledIds (allExchanges busyRace.1) = [1, 2] ∧
      (∀ client, (busyRace.2.rest client).value?.isSome = true) ∧
      ConflictFree busyClients busyRace.1 busyRace.2 :=
  ⟨by decide +kernel, by decide +kernel, by decide +kernel,
    upkeep_is_conflict_free (interleaved_play Store.Calls _ _ _)⟩

end PipelineUpkeep

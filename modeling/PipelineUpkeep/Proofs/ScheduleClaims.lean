import Mathlib.Data.List.Pairwise
import PipelineUpkeep.Proofs.NextRunOrder
import PipelineUpkeep.Proofs.PaidDeliveries
/-!
# Every next run is claimed once

Deliveries and sweeps race for the next runs of schedules, each from rows that it has
read at some time before.  Whoever wins a next run replaces it by a later instant, so
it never returns and nobody else can win it.  A pipeline is asked for only by those
who have won, once for each next run.
-/

namespace PipelineUpkeep

open Time

/-- Who deals with schedules. -/
inductive ScheduleClient where
  /-- A delivery whose caller has not advanced the next run. -/
  | delivery (context : DeliveryContext) (scheduleId userId : Nat)
  /-- A sweep whose deliveries make their requests in a given order. -/
  | sweep (context : DeliveryContext) (now : Timestamp) (order : List Nat)

namespace ScheduleClient

def Outcome : ScheduleClient → Type
  | delivery .. => DeliveryOutcome
  | sweep .. => Except UpkeepError (List SweepEntry)

def program : (client : ScheduleClient) → Program client.Outcome
  | delivery context scheduleId userId => deliver context scheduleId userId false
  | sweep context now order => sweepInOrder context now order

/-- Deliveries advance the next run themselves. -/
def ClaimsFirst : ScheduleClient → Prop
  | delivery context _ _ => ∀ project, context.rules.scheduleWorker project = true
  | sweep .. => True

/-- The clients before anyone has made a request. -/
def system {κ : Type} (store : Store) (clients : κ → ScheduleClient) :
    System fun client : κ => (clients client).Outcome where
  store := store
  rest client := (clients client).program

/-- Clients pay for all they ask, beginning with nothing. -/
theorem program_follows {client : ScheduleClient} (hFirst : client.ClaimsFirst) (scheduleId : Nat)
    (store : Store) :
    client.program.Follows (ledger scheduleId) (fun later _ _ => Balanced scheduleId later) []
      store := by
  have hAffords : client.program.Affords scheduleId (fun _ _ => True) 0 := by
    cases client with
    | delivery context id userId => exact deliver_affords hFirst id userId
    | sweep context now order => exact sweepInOrder_affords context now order
  apply hAffords.follows
  exact Nat.le_refl 0

end ScheduleClient

/-- All exchanges of a history, in order. -/
def allExchanges {ι : Type} (history : List (Moment ι)) : List Exchange :=
  history.map (·.exchange)

/-- How the next runs of one schedule are claimed in a history. -/
structure ClaimedOnce {ι : Type} (scheduleId : Nat) (history : List (Moment ι)) : Prop where
  /-- The next run changes only where a client wins it: it was the instant that was
  observed, and becomes the one that was asked for. -/
  written : ∀ moment ∈ history,
    match moment.exchange.advance? scheduleId with
    | some (observed, next) =>
        moment.before.nextRunAt? scheduleId = some observed ∧
          moment.after.nextRunAt? scheduleId = some next
    | none => moment.after.nextRunAt? scheduleId = moment.before.nextRunAt? scheduleId
  /-- The instants that are written increase. -/
  increasing : ((advances scheduleId (allExchanges history)).map (·.2)).Pairwise (· < ·)
  /-- No instant is won twice. -/
  won_once : ((advances scheduleId (allExchanges history)).map (·.1)).Nodup
  /-- At no time have more pipelines been asked for than next runs were won. -/
  paid : ∀ earlier, earlier <+: history →
    firings scheduleId (allExchanges earlier) ≤
      (advances scheduleId (allExchanges earlier)).length

section Balance

variable {ι : Type} [DecidableEq ι] {scheduleId : Nat}

/-- The moments of all clients but one. -/
def otherMoments (client : ι) (history : List (Moment ι)) : List (Moment ι) :=
  history.filter fun moment => !decide (moment.client = client)

theorem ownExchanges_otherMoments_self (client : ι) (history : List (Moment ι)) :
    ownExchanges client (otherMoments client history) = [] := by
  simp [ownExchanges, otherMoments, List.filter_filter]

theorem ownExchanges_otherMoments_of_ne {client other : ι} (h : other ≠ client)
    (history : List (Moment ι)) :
    ownExchanges other (otherMoments client history) = ownExchanges other history := by
  unfold ownExchanges otherMoments
  rw [List.filter_filter]
  congr 2
  funext moment
  by_cases hOther : moment.client = other
  · simp [hOther, h]
  · simp [hOther]

/-- Anything is as often among all exchanges as with one client and the others together. -/
theorem countP_allExchanges (client : ι) (history : List (Moment ι)) (holds : Exchange → Bool) :
    (allExchanges history).countP holds = (ownExchanges client history).countP holds +
      (allExchanges (otherMoments client history)).countP holds := by
  simp only [allExchanges, ownExchanges, otherMoments, List.countP_map]
  exact List.countP_eq_countP_filter_add _ _ _

/-- The books of all clients together are in order if those of each are. -/
theorem balanced_allExchanges {history : List (Moment ι)}
    (h : ∀ client, Balanced scheduleId (ownExchanges client history)) :
    Balanced scheduleId (allExchanges history) := by
  -- One client after the other is taken out of the history.
  induction hLength : history.length using Nat.strongRecOn generalizing history with
  | ind length ih =>
      cases history with
      | nil => exact Nat.le_refl 0
      | cons moment rest =>
          have hShorter : (otherMoments moment.client (moment :: rest)).length < length := by
            rw [← hLength, otherMoments]
            simp only [List.filter_cons, decide_true, Bool.not_true, Bool.false_eq_true, if_false,
              List.length_cons]
            exact Nat.lt_succ_of_le (List.length_filter_le _ rest)
          have hEach : ∀ client, Balanced scheduleId
              (ownExchanges client (otherMoments moment.client (moment :: rest))) := by
            intro client
            by_cases hClient : client = moment.client
            · rw [hClient, ownExchanges_otherMoments_self]
              exact Nat.le_refl 0
            · rw [ownExchanges_otherMoments_of_ne hClient]
              exact h client
          have hOthers := ih _ hShorter hEach rfl
          have hOwn := h moment.client
          rw [balanced_iff] at hOwn hOthers ⊢
          have hCount := countP_allExchanges moment.client (moment :: rest)
          rw [hCount, hCount]
          exact Nat.add_le_add hOwn hOthers

end Balance

section Histories

variable {κ : Type} [DecidableEq κ] {clients : κ → ScheduleClient} {store : Store}
  {history : List (Moment κ)} {final : System fun client : κ => (clients client).Outcome}
  (h : Interleaved Store.NextRunsGrow (ScheduleClient.system store clients) history final)
  (hFirst : ∀ client, (clients client).ClaimsFirst)

include h hFirst

theorem Interleaved.claims_balanced (scheduleId : Nat) (client : κ) :
    Balanced scheduleId (ownExchanges client history) := by
  have hStart := ScheduleClient.program_follows (hFirst client) scheduleId store
  exact (h.follows hStart (fun _ _ _ => trivial) (fun _ _ _ => trivial)).balanced

theorem Interleaved.movesForward :
    ∀ moment ∈ history, moment.exchange.asked.MovesForward := by
  intro moment hMoment
  obtain ⟨earlier, later, rfl⟩ := List.append_of_mem hMoment
  -- That requests move forward is permitted by the ledger of any schedule.
  have hStart := ScheduleClient.program_follows (hFirst moment.client) 0 store
  exact (h.permits rfl hStart (fun _ _ _ => trivial) (fun _ _ _ => trivial)
    fun other hOther _ => h.occurs other (List.mem_append_left _ hOther)).2

/-- A win replaces the next run of that moment by a later instant. -/
theorem Interleaved.advance?_eq_some {scheduleId : Nat} {moment : Moment κ}
    (hMoment : moment ∈ history) {won : Timestamp × Timestamp}
    (hWon : moment.exchange.advance? scheduleId = some won) :
    moment.before.nextRunAt? scheduleId = some won.1 ∧
      moment.after.nextRunAt? scheduleId = some won.2 ∧ won.1 < won.2 := by
  have hForward := h.movesForward hFirst moment hMoment
  have hOccurs := h.occurs moment hMoment
  obtain ⟨client, ⟨asked, answer⟩, before, after⟩ := moment
  rcases hOccurs.nextRun_cases with
    ⟨hNone, -⟩ | ⟨access, id, observed, next, rfl, hPair, hRun, hSet⟩
  · rw [hNone scheduleId] at hWon
    cases hWon
  · rw [hPair scheduleId] at hWon
    by_cases hId : id = scheduleId
    · rw [if_pos hId] at hWon
      obtain rfl := Option.some.inj hWon
      subst hId
      refine ⟨hRun, ?_, hForward⟩
      show after.nextRunAt? id = some next
      rw [hSet, if_pos rfl]
    · rw [if_neg hId] at hWon
      cases hWon

/-- Of two wins the later one is of an instant that is not before the one set first. -/
theorem Interleaved.pairwise_advances (scheduleId : Nat) :
    (advances scheduleId (allExchanges history)).Pairwise fun first second =>
      first.1 < first.2 ∧ first.2 ≤ second.1 ∧ second.1 < second.2 := by
  have hMoments : ∀ moment ∈ history, moment.before.NextRunsGrow moment.after := by
    intro moment hMoment
    apply (h.occurs moment hMoment).nextRunsGrow
    exact h.movesForward hFirst moment hMoment
  have hGrow := h.pairwise_relates Store.NextRunsGrow.refl Store.NextRunsGrow.trans id hMoments
  unfold advances allExchanges
  rw [List.filterMap_map, List.pairwise_filterMap]
  refine hGrow.imp_of_mem ?_
  intro earlier later hEarlier hLater hBetween first hFirstWon second hSecondWon
  obtain ⟨-, hSet, hFirstForward⟩ := h.advance?_eq_some hFirst hEarlier hFirstWon
  obtain ⟨hRun, -, hSecondForward⟩ := h.advance?_eq_some hFirst hLater hSecondWon
  obtain ⟨reached, hReached, hLe⟩ := hBetween scheduleId first.2 hSet
  obtain rfl : reached = second.1 := Option.some.inj (hReached.symm.trans hRun)
  exact ⟨hFirstForward, hLe, hSecondForward⟩

/-- However the clients take turns, and whatever their clocks show, as long as nobody
else moves a next run back. -/
theorem next_runs_claimed_once (scheduleId : Nat) : ClaimedOnce scheduleId history := by
  have hPairs := h.pairwise_advances hFirst scheduleId
  refine ⟨?_, ?_, ?_, ?_⟩
  · intro moment hMoment
    split
    · rename_i observed next hWon
      obtain ⟨hRun, hSet, -⟩ := h.advance?_eq_some hFirst hMoment hWon
      exact ⟨hRun, hSet⟩
    · rename_i hNone
      rcases (h.occurs moment hMoment).nextRun_cases with
        ⟨-, hSame⟩ | ⟨_, id, _, _, -, hPair, -, hSet⟩
      · exact hSame scheduleId
      · rw [hPair scheduleId] at hNone
        by_cases hId : id = scheduleId
        · rw [if_pos hId] at hNone
          cases hNone
        · rw [hSet scheduleId, if_neg (Ne.symm hId)]
  · refine List.pairwise_map.mpr (hPairs.imp ?_)
    rintro first second ⟨-, hBetween, hLater⟩
    exact Timestamp.lt_of_le_of_lt hBetween hLater
  · refine List.pairwise_map.mpr (hPairs.imp ?_)
    rintro first second ⟨hForward, hBetween, -⟩ hSame
    rw [hSame] at hForward
    exact Timestamp.lt_irrefl _ (Timestamp.lt_of_lt_of_le hForward hBetween)
  · rintro earlier ⟨later, rfl⟩
    obtain ⟨reached, hReached, -⟩ := h.split
    exact balanced_allExchanges fun client => hReached.claims_balanced hFirst scheduleId client

end Histories

/-- A schedule of every noon, not yet fired at the first one. -/
def noonSchedule : Schedule where
  id := 1
  projectId := 1
  ref := "main"
  cron := "0 12 * * *"
  ownerId := 1
  active := true
  nextRunAt := ⟨43200, 0⟩
  lastPipelineId := none
  description := ""

def noonStore : Store :=
  Store.ofSnapshot { Snapshot.empty with
    projects := [⟨1, "group/app", true, none, []⟩]
    users := [⟨1, "ada"⟩]
    schedules := [noonSchedule] }

/-- A sweep and two deliveries of the schedule. -/
def noonClients : Fin 3 → ScheduleClient
  | 0 => .sweep ⟨.fixed ⟨true, false⟩, .standard⟩ ⟨43200, 0⟩ []
  | _ => .delivery ⟨.fixed ⟨true, false⟩, .standard⟩ 1 1

/-- All of them at noon, taking turns up to their ends. -/
def noonRace : List (Moment (Fin 3)) × System fun client => (noonClients client).Outcome :=
  (ScheduleClient.system noonStore noonClients).play ⟨43200, 0⟩
    (List.replicate 20 [0, 1, 2]).flatten

theorem next_runs_claimed_once_noonRace :
    advances 1 (allExchanges noonRace.1) = [(⟨43200, 0⟩, ⟨129600, 0⟩)] ∧
      firings 1 (allExchanges noonRace.1) = 1 ∧ ClaimedOnce 1 noonRace.1 := by
  have hFirst : ∀ client, (noonClients client).ClaimsFirst
    | 0 => trivial
    | 1 => fun _ => rfl
    | 2 => fun _ => rfl
  exact ⟨by decide +kernel, by decide +kernel,
    next_runs_claimed_once (interleaved_play Store.NextRunsGrow _ _ _) hFirst 1⟩

end PipelineUpkeep

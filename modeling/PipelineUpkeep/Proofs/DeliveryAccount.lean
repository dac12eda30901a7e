import PipelineUpkeep.Proofs.DeliveryTrace
/-!
# The account of a delivery

A delivery has an outcome, whatever it is answered.  It counts and reports an error, once and
for its own schedule, exactly if its outcome is one, and it asks for a pipeline only when it
is cleared to.
-/

namespace PipelineUpkeep

open Time

def DeliveryOutcome.isErrored : DeliveryOutcome → Bool
  | .errored _ => true
  | _ => false

/-- The exchange counts a failed creation. -/
def Exchange.countsFailure : Exchange → Bool
  | ⟨.countFailure, _⟩ => true
  | _ => false

/-- The schedule of which the exchange reports an error. -/
def Exchange.trackedId? : Exchange → Option Nat
  | ⟨.track _ scheduleId, _⟩ => some scheduleId
  | _ => none

/-- What a delivery has asked, by the moments of its requests and by its result. -/
structure DeliveryAccount (scheduleWorker : Project → Bool) (scheduleId userId : Nat)
    (nextRunScheduled : Bool) (moments : List (Moment Unit))
    (result : Except Fault DeliveryOutcome) : Prop where
  returns : ∃ outcome, result = .ok outcome
  /-- An unexpected error is counted once, and nothing else is. -/
  counts : ∀ outcome, result = .ok outcome →
    (moments.map (·.exchange)).countP Exchange.countsFailure = if outcome.isErrored then 1 else 0
  /-- It is reported once, for the schedule, and nothing else is. -/
  tracks : ∀ outcome, result = .ok outcome →
    (moments.map (·.exchange)).filterMap Exchange.trackedId? =
      if outcome.isErrored then [scheduleId] else []
  /-- Whenever the creator is called, the delivery has been cleared. -/
  cleared : ∀ earlier moment later request, moments = earlier ++ moment :: later →
    moment.exchange.asked = .creation request →
      Cleared scheduleWorker scheduleId userId nextRunScheduled (earlier.map (·.exchange)) request

section Traces

variable {scheduleWorker : Project → Bool} {scheduleId userId : Nat} {nextRunScheduled : Bool}
  {made : List Exchange} {outcome : DeliveryOutcome}

theorem Quiet.tells_nothing (h : Quiet made) :
    made.countP Exchange.countsFailure = 0 ∧ made.filterMap Exchange.trackedId? = [] := by
  constructor
  · refine List.countP_eq_zero.mpr fun exchange hExchange => ?_
    obtain ⟨asked, answer⟩ := exchange
    have hQuiet := h _ hExchange
    cases asked with
    | countFailure => cases hQuiet
    | _ => exact Bool.false_ne_true
  · refine List.filterMap_eq_nil_iff.mpr fun exchange hExchange => ?_
    obtain ⟨asked, answer⟩ := exchange
    have hQuiet := h _ hExchange
    cases asked with
    | track => cases hQuiet
    | _ => rfl

theorem FailureReport.tells (h : FailureReport scheduleId outcome made) :
    made.countP Exchange.countsFailure = (if outcome.isErrored then 1 else 0) ∧
      made.filterMap Exchange.trackedId? = if outcome.isErrored then [scheduleId] else [] := by
  cases h with
  | expected _ hExpected =>
      cases outcome with
      | errored message => exact absurd rfl (hExpected message)
      | _ => exact ⟨rfl, rfl⟩
  | errored message => exact ⟨rfl, rfl⟩

theorem DeliveryTrace.tells
    (h : DeliveryTrace scheduleWorker scheduleId userId nextRunScheduled made outcome) :
    made.countP Exchange.countsFailure = (if outcome.isErrored then 1 else 0) ∧
      made.filterMap Exchange.trackedId? = if outcome.isErrored then [scheduleId] else [] := by
  cases h with
  | idle before report hMade hBefore hReport =>
      obtain ⟨hCounts, hTracks⟩ := hReport.tells
      obtain ⟨hNone, hNil⟩ := hBefore.tells_nothing
      rw [hMade, List.countP_append, List.filterMap_append, hNone, hNil, hCounts, hTracks]
      exact ⟨Nat.zero_add _, rfl⟩
  | fired before own report request hMade hBefore _ hOwn hReport =>
      obtain ⟨hCounts, hTracks⟩ := hReport.tells
      obtain ⟨hNone, hNil⟩ := hBefore.tells_nothing
      obtain ⟨hOwnNone, hOwnNil⟩ := hOwn.tells_nothing
      have hCreation : Exchange.countsFailure ⟨.creation request, ()⟩ = false := rfl
      have hUntracked : Exchange.trackedId? ⟨.creation request, ()⟩ = none := rfl
      rw [hMade, List.countP_append, List.countP_append, List.countP_cons, List.filterMap_append,
        List.filterMap_append, List.filterMap_cons, hNone, hNil, hOwnNone, hOwnNil, hCounts,
        hTracks, hCreation, hUntracked]
      exact ⟨Nat.zero_add _, rfl⟩

/-- The report makes no request for a pipeline. -/
theorem FailureReport.not_mem (h : FailureReport scheduleId outcome made)
    (request : CreationRequest) (answer : Unit) : ⟨.creation request, answer⟩ ∉ made := by
  cases h with
  | expected => exact List.not_mem_nil
  | errored message =>
      intro hMem
      simp only [List.mem_cons, List.not_mem_nil, or_false] at hMem
      rcases hMem with hCount | hLog | hTrack
      · cases hCount
      · cases hLog
      · cases hTrack

theorem Quiet.not_mem (h : Quiet made) (request : CreationRequest) (answer : Unit) :
    ⟨.creation request, answer⟩ ∉ made := fun hMem => Bool.false_ne_true (h _ hMem)

/-- There is one request for a pipeline at most, and what comes before it clears it. -/
theorem DeliveryTrace.cleared
    (h : DeliveryTrace scheduleWorker scheduleId userId nextRunScheduled made outcome)
    {earlier later : List Exchange} {request : CreationRequest} {answer : Unit}
    (hSplit : made = earlier ++ ⟨.creation request, answer⟩ :: later) :
    Cleared scheduleWorker scheduleId userId nextRunScheduled earlier request := by
  have hMem : (⟨.creation request, answer⟩ : Exchange) ∈ made := by
    rw [hSplit]
    exact List.mem_append_right _ List.mem_cons_self
  cases h with
  | idle before report hMade hBefore hReport =>
      rw [hMade] at hMem
      rcases List.mem_append.mp hMem with hOld | hNew
      · exact absurd hOld (hBefore.not_mem request answer)
      · exact absurd hNew (hReport.not_mem request answer)
  | fired before own report first hMade hBefore hCleared hOwn hReport =>
      have hRest : (⟨.creation request, answer⟩ : Exchange) ∉ own ++ report := fun hLater =>
        (List.mem_append.mp hLater).elim (hOwn.not_mem request answer)
          (hReport.not_mem request answer)
      rw [hMade, List.append_assoc, List.cons_append] at hSplit
      obtain ⟨rfl, hSame, -⟩ :=
        (List.append_cons_inj_of_notMem (hBefore.not_mem request answer) hRest).mp hSplit
      cases hSame
      exact hCleared

theorem Request.Ends.namesOwn {asked : Request} {answer : asked.Answer} {before after : Store}
    (h : asked.Ends before answer after) : asked.NamesOwn answer := by
  cases asked with
  | store access call =>
      cases call with
      | schedule id =>
          match answer with
          | .ok (some row) =>
              rcases h with hOccurs | ⟨⟨error, hError⟩, -⟩
              · have hFound : before.schedules.find? id = some row :=
                  Except.ok.inj (congrArg Prod.fst hOccurs)
                exact ((before.schedules.find?_eq_some_iff id row).mp hFound).2
              · cases hError
          | .ok none | .error _ => trivial
      | _ => trivial
  | _ => trivial

/-- Clocks show these times only. -/
def Circumstances.Show (circumstances : Circumstances) (times : Timestamp → Prop) : Prop :=
  ∀ history, times (circumstances history .clock).2.1

theorem Circumstances.Show.shows {circumstances : Circumstances} {times : Timestamp → Prop}
    (h : circumstances.Show times) (history : List (Moment Unit)) (asked : Request) :
    asked.Shows times (circumstances history asked).2.1 := by
  cases asked with
  | clock => exact h history
  | _ => trivial

/-- A delivery accounts for what it asks, with any reliable creator. -/
theorem deliverVia_account {create : Creator} {times : Timestamp → Prop}
    (hCreate : create.IsReliable times) {moments : List (Moment Unit)}
    {result : Except Fault DeliveryOutcome}
    (hReaches : (deliverVia create scheduleWorker scheduleId userId nextRunScheduled).Reaches
      (moments.map (·.exchange)) (.ofEnd result))
    (hEnds : ∀ moment ∈ moments,
      moment.exchange.asked.Ends moment.before moment.exchange.answer moment.after)
    (hShows : ∀ moment ∈ moments, moment.exchange.asked.Shows times moment.exchange.answer) :
    DeliveryAccount scheduleWorker scheduleId userId nextRunScheduled moments result := by
  have hStart : (deliverVia create scheduleWorker scheduleId userId nextRunScheduled).Fulfills
      (deliveryTerms times)
      (fun later outcome _ =>
        DeliveryTrace scheduleWorker scheduleId userId nextRunScheduled later outcome) [] default :=
    deliverVia_trace hCreate scheduleId userId
  have hAnswers : ∀ exchange ∈ moments.map (·.exchange),
      exchange.asked.Shows times exchange.answer ∧ exchange.asked.NamesOwn exchange.answer := by
    intro exchange hExchange
    obtain ⟨moment, hMoment, rfl⟩ := List.mem_map.mp hExchange
    exact ⟨hShows moment hMoment, (hEnds moment hMoment).namesOwn⟩
  obtain ⟨hDone, hFaults⟩ := hStart.of_reaches_end hReaches hAnswers
  have hTrace (outcome : DeliveryOutcome) (hOutcome : result = .ok outcome) :
      DeliveryTrace scheduleWorker scheduleId userId nextRunScheduled
        (moments.map (·.exchange)) outcome := hDone outcome hOutcome default
  have hReturns : ∃ outcome, result = .ok outcome := by
    cases result with
    | ok outcome => exact ⟨outcome, rfl⟩
    | error fault => exact (hFaults fault rfl).elim
  refine ⟨hReturns, fun outcome hOutcome => (hTrace outcome hOutcome).tells.1,
    fun outcome hOutcome => (hTrace outcome hOutcome).tells.2, ?_⟩
  rintro earlier ⟨⟨⟩, ⟨asked, answer⟩, before, after⟩ later request hSplit hAsked
  obtain rfl : asked = .creation request := hAsked
  obtain ⟨outcome, hOutcome⟩ := hReturns
  have hMade : moments.map (·.exchange) = earlier.map (·.exchange) ++
      ⟨.creation request, answer⟩ :: later.map (·.exchange) := by
    rw [hSplit, List.map_append, List.map_cons]
  exact (hTrace outcome hOutcome).cleared hMade

end Traces

end PipelineUpkeep

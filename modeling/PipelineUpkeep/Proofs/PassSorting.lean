import PipelineUpkeep.Proofs.CancellationAccounts
import PipelineUpkeep.Proofs.UnreliableStore
/-!
# What a run has counted so far

Two invariants carry the tally of a cancellation run.  From the first request to the last,
what was canceled has settled, so it is not canceled again.  Within a pass, what was read is
sorted: each pipeline is listed at one place of the summary, or it is still pending.  A new
batch starts past everything that the pass has sorted, and it consists of pipelines that may
be canceled, so nothing in it has been canceled by an earlier pass.
-/

namespace PipelineUpkeep

open Time

/-! ## What a pass has read -/

namespace Exchange

/-- The pipelines of a batch that was read; only reads of batches have a limit. -/
def batchIds : Exchange → List Nat
  | ⟨.store _ (.pipelines query), .ok rows⟩ =>
      if query.limit.isSome then List.map Pipeline.id rows else []
  | _ => []

/-- Between two passes a run pauses. -/
def isPause : Exchange → Bool
  | ⟨.sleep _, _⟩ => true
  | _ => false

end Exchange

/-- The candidates that were read in the last pass. -/
def idsRead (past : List Exchange) : List Nat :=
  past.foldl (fun ids exchange => if exchange.isPause then [] else ids ++ exchange.batchIds) []

theorem idsRead_append_singleton (past : List Exchange) (exchange : Exchange) :
    idsRead (past ++ [exchange]) =
      if exchange.isPause then [] else idsRead past ++ exchange.batchIds := by
  simp [idsRead, List.foldl_append]

/-- Nothing that is counted has happened in between. -/
structure SameTally (past later : List Exchange) : Prop extends SameAccount past later where
  idsRead_eq : idsRead later = idsRead past

theorem SameTally.refl (past : List Exchange) : SameTally past past := ⟨.refl past, rfl⟩

theorem SameTally.trans {past middle later : List Exchange} (h : SameTally past middle)
    (hLater : SameTally middle later) : SameTally past later :=
  ⟨h.toSameAccount.trans hLater.toSameAccount, hLater.idsRead_eq.trans h.idsRead_eq⟩

/-- The exchange is none of those that are counted. -/
structure Exchange.IsPlain (exchange : Exchange) : Prop where
  canceled : exchange.canceledId? = none
  record : exchange.auditRecord? = none
  batch : exchange.batchIds = []
  pause : exchange.isPause = false

theorem Exchange.IsPlain.sameTally {exchange : Exchange} (h : exchange.IsPlain)
    (past : List Exchange) : SameTally past (past ++ [exchange]) where
  toSameAccount := sameAccount_append h.canceled h.record
  idsRead_eq := by
    rw [idsRead_append_singleton, h.pause, h.batch, List.append_nil]
    rfl

/-! ## The two invariants -/

/-- What was canceled was canceled once and for all. -/
structure CanceledForGood (past : List Exchange) (store : Store) : Prop where
  once : (canceledIds past).Nodup
  settled : ∀ id ∈ canceledIds past, store.IsSettled id

theorem CanceledForGood.later {past later : List Exchange} {store held : Store}
    (h : CanceledForGood past store) (hSame : canceledIds later = canceledIds past)
    (hKeeps : store.KeepsSettled held) : CanceledForGood later held where
  once := by
    rw [hSame]
    exact h.once
  settled id hId := by
    rw [hSame] at hId
    exact hKeeps id (h.settled id hId)

theorem CanceledForGood.addCanceled {past later : List Exchange} {store held : Store} {id : Nat}
    (h : CanceledForGood past store) (hCanceled : canceledIds later = canceledIds past ++ [id])
    (hKeeps : store.KeepsSettled held) (hNew : id ∉ canceledIds past)
    (hSettled : held.IsSettled id) : CanceledForGood later held where
  once := by
    rw [hCanceled]
    refine List.nodup_append.mpr ⟨h.once, List.nodup_singleton id, ?_⟩
    rintro other hOther _ hId rfl
    exact hNew (List.mem_singleton.mp hId ▸ hOther)
  settled other hOther := by
    rw [hCanceled] at hOther
    rcases List.mem_append.mp hOther with hOld | hLast
    · exact hKeeps other (h.settled other hOld)
    · rw [List.mem_singleton.mp hLast]
      exact hSettled

/-- The summary of a run in attempt number `attempt`, whose batches have a limit. -/
structure Tallied (limit attempt : Nat) (past : List Exchange) (summary : CancellationSummary)
    (store : Store) : Prop where
  accounted : Accounted past summary
  forGood : CanceledForGood past store
  largestBatch : summary.largestBatch ≤ limit
  attempts : summary.attempts = attempt

namespace Tallied

variable {limit attempt : Nat} {past : List Exchange} {summary : CancellationSummary}
  {store : Store}

theorem later {later : List Exchange} {held : Store}
    (h : Tallied limit attempt past summary store) (hSame : SameAccount past later)
    (hKeeps : store.KeepsSettled held) : Tallied limit attempt later summary held where
  accounted := h.accounted.of_sameAccount hSame
  forGood := h.forGood.later hSame.canceledIds_eq hKeeps
  largestBatch := h.largestBatch
  attempts := h.attempts

/-- Only the canceled pipelines of a summary are accounted for. -/
theorem of_canceled_eq {next : Nat} {other : CancellationSummary}
    (h : Tallied limit attempt past summary store) (hCanceled : other.canceled = summary.canceled)
    (hLargest : other.largestBatch ≤ limit) (hAttempts : other.attempts = next) :
    Tallied limit next past other store where
  accounted := h.accounted.of_canceled_eq hCanceled
  forGood := h.forGood
  largestBatch := hLargest
  attempts := hAttempts

end Tallied

/-- Where a summary lists a pipeline that a pass has dealt with. -/
inductive Place where
  | canceled
  | notInterruptible
  | alreadyResolved

/-- The pipelines that the summary lists there. -/
def CancellationSummary.idsAt (summary : CancellationSummary) : Place → List Nat
  | .canceled => summary.canceled.toList
  | .notInterruptible => summary.notInterruptible.toList
  | .alreadyResolved => summary.alreadyResolved.toList

/-- A pass has sorted what it has read, except for what is pending. -/
structure Sorted (past : List Exchange) (summary : CancellationSummary) (pending : List Nat) :
    Prop where
  once : ∀ id place other, id ∈ summary.idsAt place → id ∈ summary.idsAt other → place = other
  covered : ∀ id ∈ idsRead past, id ∈ pending ∨ ∃ place, id ∈ summary.idsAt place
  nodup : pending.Nodup
  pending_read : ∀ id ∈ pending, id ∈ idsRead past
  pending_open : ∀ id ∈ pending, ∀ place, id ∉ summary.idsAt place
  /-- What earlier passes have left alone is forgotten. -/
  read : ∀ place ≠ Place.canceled, ∀ id ∈ summary.idsAt place, id ∈ idsRead past

namespace Sorted

variable {past : List Exchange} {summary : CancellationSummary} {pending : List Nat}

theorem later {later : List Exchange} (h : Sorted past summary pending)
    (hSame : idsRead later = idsRead past) : Sorted later summary pending := by
  refine ⟨h.once, ?_, h.nodup, ?_, h.pending_open, ?_⟩
  · rw [hSame]
    exact h.covered
  · rw [hSame]
    exact h.pending_read
  · rw [hSame]
    exact h.read

/-- A pass starts with nothing read and nothing left alone. -/
theorem startPass (hRead : idsRead past = []) (attempt : Nat) :
    Sorted past (summary.startPass attempt) [] := by
  have hOnly {id : Nat} {place : Place} (hId : id ∈ (summary.startPass attempt).idsAt place) :
      place = .canceled := by
    cases place with
    | canceled => rfl
    | notInterruptible | alreadyResolved => exact absurd hId List.not_mem_nil
  refine ⟨?_, ?_, List.nodup_nil, ?_, ?_, ?_⟩
  · intro id place other hPlace hOther
    rw [hOnly hPlace, hOnly hOther]
  · rw [hRead]
    exact fun id hId => absurd hId List.not_mem_nil
  · exact fun id hId => absurd hId List.not_mem_nil
  · exact fun id hId => absurd hId List.not_mem_nil
  · exact fun place hPlace id hId => absurd (hOnly hId) hPlace

theorem recordBatch (h : Sorted past summary pending) (size : Nat) :
    Sorted past (summary.recordBatch size) pending := by
  have hSame (place : Place) : (summary.recordBatch size).idsAt place = summary.idsAt place := by
    cases place <;> rfl
  refine ⟨?_, ?_, h.nodup, h.pending_read, ?_, ?_⟩
  · simpa only [hSame] using h.once
  · simpa only [hSame] using h.covered
  · simpa only [hSame] using h.pending_open
  · simpa only [hSame] using h.read

/-- A batch of pipelines that the pass has not read and no pass has canceled. -/
theorem readBatch {later : List Exchange} {ids : List Nat} (h : Sorted past summary [])
    (hRead : idsRead later = idsRead past ++ ids) (hNodup : ids.Nodup)
    (hUnread : ∀ id ∈ ids, id ∉ idsRead past)
    (hOpen : ∀ id ∈ ids, id ∉ summary.canceled.toList) : Sorted later summary ids := by
  refine ⟨h.once, ?_, hNodup, ?_, ?_, ?_⟩
  · intro id hId
    rw [hRead] at hId
    rcases List.mem_append.mp hId with hEarlier | hNew
    · exact Or.inr ((h.covered id hEarlier).resolve_left List.not_mem_nil)
    · exact Or.inl hNew
  · intro id hId
    rw [hRead]
    exact List.mem_append_right _ hId
  · intro id hId place hPlace
    by_cases hCanceled : place = .canceled
    · subst hCanceled
      exact hOpen id hId hPlace
    · exact hUnread id hId (h.read place hCanceled id hPlace)
  · intro place hPlace id hId
    rw [hRead]
    exact List.mem_append_left _ (h.read place hPlace id hId)

/-- Some of what is pending is listed at one place. -/
theorem listAt {next : CancellationSummary} {kept : List Nat} {isListed : Nat → Prop}
    (h : Sorted past summary pending) (place : Place)
    (hNext : ∀ other id, id ∈ next.idsAt other ↔
      (other = place ∧ isListed id) ∨ id ∈ summary.idsAt other)
    (hPending : ∀ id, id ∈ pending ↔ id ∈ kept ∨ isListed id)
    (hKept : ∀ id ∈ kept, ¬ isListed id) (hNodup : kept.Nodup) : Sorted past next kept := by
  have hOpen {id : Nat} (hListed : isListed id) (other : Place) : id ∉ summary.idsAt other :=
    h.pending_open id ((hPending id).mpr (Or.inr hListed)) other
  refine ⟨?_, ?_, hNodup, ?_, ?_, ?_⟩
  · intro id first second hFirst hSecond
    rcases (hNext first id).mp hFirst with ⟨rfl, hListed⟩ | hOld
    · rcases (hNext second id).mp hSecond with ⟨rfl, -⟩ | hOld
      · rfl
      · exact absurd hOld (hOpen hListed second)
    · rcases (hNext second id).mp hSecond with ⟨-, hListed⟩ | hAgain
      · exact absurd hOld (hOpen hListed first)
      · exact h.once id first second hOld hAgain
  · intro id hId
    rcases h.covered id hId with hWaits | ⟨other, hOther⟩
    · rcases (hPending id).mp hWaits with hStays | hListed
      · exact Or.inl hStays
      · exact Or.inr ⟨place, (hNext place id).mpr (Or.inl ⟨rfl, hListed⟩)⟩
    · exact Or.inr ⟨other, (hNext other id).mpr (Or.inr hOther)⟩
  · exact fun id hId => h.pending_read id ((hPending id).mpr (Or.inl hId))
  · intro id hId other hOther
    rcases (hNext other id).mp hOther with ⟨-, hListed⟩ | hOld
    · exact hKept id hId hListed
    · exact h.pending_open id ((hPending id).mpr (Or.inl hId)) other hOld
  · intro other hPlace id hId
    rcases (hNext other id).mp hId with ⟨-, hListed⟩ | hOld
    · exact h.pending_read id ((hPending id).mpr (Or.inr hListed))
    · exact h.read other hPlace id hOld

theorem addNotInterruptible {kept left : List Nat} (h : Sorted past summary pending)
    (hPending : ∀ id, id ∈ pending ↔ id ∈ kept ∨ id ∈ left) (hKept : ∀ id ∈ kept, id ∉ left)
    (hNodup : kept.Nodup) : Sorted past (summary.addNotInterruptible left) kept := by
  refine h.listAt .notInterruptible (fun other id => ?_) hPending hKept hNodup
  cases other with
  | notInterruptible =>
      refine (IdSet.mem_toList_insertAll_iff _ left id).trans (or_congr_left ?_)
      simp
  | canceled | alreadyResolved =>
      simp [CancellationSummary.idsAt, CancellationSummary.addNotInterruptible]

section Single

variable {id : Nat} {rest : List Nat} (h : Sorted past summary (id :: rest))

include h

/-- The first pending pipeline is listed at one place. -/
theorem listHeadAt {next : CancellationSummary} (place : Place)
    (hNext : ∀ other x, x ∈ next.idsAt other ↔
      (other = place ∧ x = id) ∨ x ∈ summary.idsAt other) : Sorted past next rest := by
  obtain ⟨hNew, hRest⟩ := List.nodup_cons.mp h.nodup
  refine h.listAt place hNext (fun x => ?_) ?_ hRest
  · rw [List.mem_cons, or_comm]
  · rintro x hStays rfl
    exact hNew hStays

theorem addCanceled : Sorted past (summary.addCanceled id) rest := by
  refine h.listHeadAt .canceled fun other x => ?_
  cases other with
  | canceled =>
      refine (IdSet.mem_toList_insert_iff _ id x).trans (or_congr_left ?_)
      simp
  | notInterruptible | alreadyResolved =>
      simp [CancellationSummary.idsAt, CancellationSummary.addCanceled]

theorem addAlreadyResolved : Sorted past (summary.addAlreadyResolved id) rest := by
  refine h.listHeadAt .alreadyResolved fun other x => ?_
  cases other with
  | alreadyResolved =>
      refine (IdSet.mem_toList_insert_iff _ id x).trans (or_congr_left ?_)
      simp
  | canceled | notInterruptible =>
      simp [CancellationSummary.idsAt, CancellationSummary.addAlreadyResolved]

end Single

end Sorted

end PipelineUpkeep

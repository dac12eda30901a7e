import PipelineUpkeep.Proofs.ClaimLedger
import PipelineUpkeep.Proofs.TableLaws
/-!
# Next runs move forward

The next run of a schedule is changed by compare-and-set only.  An advance succeeds
where the next run still is what was observed, and then it is the later instant that
was asked for; every other store call leaves all next runs as they are.  As long as no
one asks for an earlier instant, no next run ever moves back, so an instant that was
replaced does not return.
-/

namespace PipelineUpkeep

open Time

namespace Store

/-- The next run of a stored schedule. -/
def nextRunAt? (store : Store) (id : Nat) : Option Timestamp :=
  (store.schedules.find? id).map (·.nextRunAt)

/-- No next run has moved back, and no schedule is lost. -/
def NextRunsGrow (before after : Store) : Prop :=
  ∀ id earlier, before.nextRunAt? id = some earlier →
    ∃ later, after.nextRunAt? id = some later ∧ earlier ≤ later

theorem NextRunsGrow.of_eq {before after : Store}
    (h : ∀ id, after.nextRunAt? id = before.nextRunAt? id) : before.NextRunsGrow after := by
  intro id earlier hEarlier
  exact ⟨earlier, (h id).trans hEarlier, Timestamp.lt_irrefl earlier⟩

theorem NextRunsGrow.refl (store : Store) : store.NextRunsGrow store :=
  .of_eq fun _ => rfl

theorem NextRunsGrow.trans {before middle after : Store} (h : before.NextRunsGrow middle)
    (hLater : middle.NextRunsGrow after) : before.NextRunsGrow after := by
  intro id earlier hEarlier
  obtain ⟨between, hBetween, hFirst⟩ := h id earlier hEarlier
  obtain ⟨last, hLast, hSecond⟩ := hLater id between hBetween
  exact ⟨last, hLast, Timestamp.le_trans hFirst hSecond⟩

/-- An advance fails and changes nothing, or it replaces the next run that was observed. -/
theorem advanceNextRun_cases (store : Store) (id : Nat) (observed next : Timestamp) :
    ((store.advanceNextRun id observed next).1 ≠ .ok true ∧
      (store.advanceNextRun id observed next).2 = store) ∨
    ((store.advanceNextRun id observed next).1 = .ok true ∧
      store.nextRunAt? id = some observed ∧
      ∀ other, (store.advanceNextRun id observed next).2.nextRunAt? other =
        if other = id then some next else store.nextRunAt? other) := by
  unfold advanceNextRun
  split
  · exact Or.inl ⟨nofun, rfl⟩
  · rename_i row hFound
    split
    · exact Or.inl ⟨nofun, rfl⟩
    · rename_i hObserved
      right
      refine ⟨rfl, ?_, fun other => ?_⟩
      · rw [nextRunAt?, hFound, Option.map_some, not_not.mp hObserved]
      · unfold nextRunAt?
        rw [Table.find?_modify]
        by_cases hOther : other = id
        · rw [if_pos hOther, hOther, hFound]
          simp
        · rw [if_neg hOther]
          simp [hOther]

theorem nextRunAt?_recordLastPipeline (store : Store) (id pipelineId other : Nat) :
    (store.recordLastPipeline id pipelineId).2.nextRunAt? other = store.nextRunAt? other := by
  unfold recordLastPipeline
  split
  · rfl
  · unfold nextRunAt?
    rw [Table.find?_modify, Option.map_map]
    congr 1
    funext row
    show (if other = id then _ else row).nextRunAt = row.nextRunAt
    split <;> rfl

/-- The other calls do not write schedules. -/
theorem schedules_cancelRunning (store : Store) (row : Pipeline) (request : CancelRequest) :
    (store.cancelRunning row request).2.schedules = store.schedules := by
  unfold cancelRunning
  split
  · rfl
  · split
    · rfl
    · split <;> rfl

end Store

/-- What a request does to next runs: it advances one, or it leaves all of them alone. -/
theorem Request.Occurs.nextRun_cases {asked : Request} {answer : asked.Answer}
    {before after : Store} (h : asked.Occurs before answer after) :
    ((∀ id, Exchange.advance? id ⟨asked, answer⟩ = none) ∧
      ∀ id, after.nextRunAt? id = before.nextRunAt? id) ∨
    ∃ access id observed next, asked = .store access (.advanceNextRun id observed next) ∧
      (∀ other, Exchange.advance? other ⟨asked, answer⟩ =
        if id = other then some (observed, next) else none) ∧
      before.nextRunAt? id = some observed ∧
      ∀ other, after.nextRunAt? other =
        if other = id then some next else before.nextRunAt? other := by
  cases asked with
  | store access call =>
      obtain rfl : (call.perform before).1 = answer := congrArg Prod.fst h
      obtain rfl : (call.perform before).2 = after := congrArg Prod.snd h
      cases call with
      | advanceNextRun id observed next =>
          rcases before.advanceNextRun_cases id observed next with
            ⟨hLost, hSame⟩ | ⟨hWon, hRun, hSet⟩
          · left
            refine ⟨fun other => ?_, fun other => congrArg (Store.nextRunAt? · other) hSame⟩
            change Exchange.advance? other
              ⟨.store access (.advanceNextRun id observed next),
                (before.advanceNextRun id observed next).1⟩ = none
            match (before.advanceNextRun id observed next).1, hLost with
            | .ok false, _ | .error _, _ => rfl
            | .ok true, hLost => exact absurd rfl hLost
          · right
            refine ⟨access, id, observed, next, rfl, fun other => ?_, hRun, hSet⟩
            change Exchange.advance? other
              ⟨.store access (.advanceNextRun id observed next),
                (before.advanceNextRun id observed next).1⟩ = _
            rw [hWon]
            rfl
      | recordLastPipeline id pipelineId =>
          exact Or.inl ⟨fun _ => rfl, before.nextRunAt?_recordLastPipeline id pipelineId⟩
      | cancelRunning row request =>
          refine Or.inl ⟨fun _ => rfl, fun id => ?_⟩
          exact congrArg (fun schedules => (schedules.find? id).map Schedule.nextRunAt)
            (before.schedules_cancelRunning row request)
      | _ => exact Or.inl ⟨fun _ => rfl, fun _ => rfl⟩
  | _ =>
      obtain rfl : after = before := h
      exact Or.inl ⟨fun _ => rfl, fun _ => rfl⟩

/-- A request that moves forward moves no next run back. -/
theorem Request.Occurs.nextRunsGrow {asked : Request} {answer : asked.Answer}
    {before after : Store} (h : asked.Occurs before answer after) (hForward : asked.MovesForward) :
    before.NextRunsGrow after := by
  rcases h.nextRun_cases with ⟨-, hSame⟩ | ⟨access, id, observed, next, rfl, -, hRun, hSet⟩
  · exact .of_eq hSame
  · have hLater : observed < next := hForward
    intro other earlier hEarlier
    rw [hSet other]
    by_cases hOther : other = id
    · subst hOther
      obtain rfl : observed = earlier := Option.some.inj (hRun.symm.trans hEarlier)
      exact ⟨next, if_pos rfl, Timestamp.le_of_lt hLater⟩
    · rw [if_neg hOther]
      exact ⟨earlier, hEarlier, Timestamp.lt_irrefl earlier⟩

end PipelineUpkeep

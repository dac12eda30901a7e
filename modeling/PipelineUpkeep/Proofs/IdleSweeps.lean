import PipelineUpkeep.Proofs.NextRunOrder
import PipelineUpkeep.Proofs.TimelyRequests
/-!
# Sweeps without entries change nothing

A sweep that has claimed nothing has delivered nothing, and an advance that is not won leaves
the store alone.  A sweep that failed did so before it claimed anything.  So whatever disturbs
the store, only a sweep with entries changes its rows.
-/

namespace PipelineUpkeep

open Time

/-! ## Calls that change nothing -/

namespace Disturbance

variable {disturbance : Disturbance} {access : Access} {store : Store}

theorem perform_of_read {call : StoreCall} (h : call.isWrite = false) :
    (disturbance.perform access call store).2.2 = store := by
  unfold perform
  split
  · rfl
  · cases call with
    | createPipeline | cancelRunning | setRefHead | advanceNextRun | recordLastPipeline => cases h
    | _ => rfl

/-- An advance that is not won leaves the store alone. -/
theorem perform_of_lost {id : Nat} {observed next : Timestamp}
    (h : (disturbance.perform access (.advanceNextRun id observed next) store).1 ≠ .ok true) :
    (disturbance.perform access (.advanceNextRun id observed next) store).2.2 = store := by
  unfold perform at h ⊢
  split
  · rfl
  · rename_i hUnfailing
    rw [hUnfailing] at h
    rcases store.advanceNextRun_cases id observed next with ⟨-, hSame⟩ | ⟨hWon, -⟩
    · exact hSame
    · exact absurd hWon h

end Disturbance

namespace Request.EndsDisturbed

variable {access : Access} {before after : Store}

theorem eq_of_read {call : StoreCall} {answer : Except StoreError call.Answer}
    (h : (Request.store access call).EndsDisturbed before answer after)
    (hRead : call.isWrite = false) : after = before := by
  obtain ⟨world, -, rfl, -, rfl⟩ := h
  simp only [World.answer, World.callStore, World.store_logCall]
  exact Disturbance.perform_of_read hRead

theorem eq_of_lost {id : Nat} {observed next : Timestamp} {answer : Except StoreError Bool}
    (h : (Request.store access (.advanceNextRun id observed next)).EndsDisturbed before answer
      after)
    (hLost : answer ≠ .ok true) : after = before := by
  obtain ⟨world, -, rfl, rfl, rfl⟩ := h
  simp only [World.answer, World.callStore, World.store_logCall]
  exact Disturbance.perform_of_lost hLost

theorem eq_of_log {entry : LogEntry} {answer : Unit}
    (h : (Request.log entry).EndsDisturbed before answer after) : after = before := by
  obtain ⟨world, -, rfl, -, rfl⟩ := h
  rfl

end Request.EndsDisturbed

/-! ## Claims -/

/-- Without other writers, requests that bring only instants that exist. -/
def claimShare : Share where
  rely before after := after = before
  refl _ := rfl
  trans := fun h hLater => hLater.trans h
  allows _ asked := asked.IsTimely

def claimTerms : Contract := claimShare.contract Request.EndsDisturbed True

section Walk

variable {past : List Exchange} {store : Store}

theorem ask_claims (asked : Request) (h : asked.IsTimely) :
    (Program.ask asked).Fulfills claimTerms
      (fun _ answer held => asked.EndsDisturbed store answer held) past store := by
  rintro before rfl
  refine ⟨h, fun answer after hEnds held hHeld => ?_⟩
  rw [hHeld]
  exact hEnds

theorem writeLog_claims (level : LogLevel) (message : String) :
    (Program.writeLog level message).Fulfills claimTerms (fun _ _ held => held = store)
      past store :=
  (ask_claims (.log _) trivial).imp fun _ _ _ => Request.EndsDisturbed.eq_of_log

theorem pure_claims {α : Type} {post : List Exchange → α → Store → Prop} {value : α}
    (h : post past value store) : (pure value : Program α).Fulfills claimTerms post past store := by
  rintro _ rfl
  exact h

/-- A schedule that is not claimed is left alone. -/
theorem claimDue_claims (now : Timestamp) (schedule : Schedule) :
    (claimDue now schedule).Fulfills claimTerms
      (fun _ won held => won = false → held = store) past store := by
  unfold claimDue
  split
  · refine (writeLog_claims _ _).andThen ?_
    rintro _ _ _ rfl
    exact pure_claims fun _ => rfl
  · rename_i next hNext
    have hValid : next.IsValid := schedule.isValid_of_nextRunAfter hNext
    refine (ask_claims (.store .schedules (.advanceNextRun ..)) hValid).andThen ?_
    intro _ result held hEnds
    match result with
    | .ok true => exact pure_claims nofun
    | .ok false =>
        obtain rfl := hEnds.eq_of_lost nofun
        refine (writeLog_claims _ _).andThen ?_
        rintro _ _ _ rfl
        exact pure_claims fun _ => rfl
    | .error error =>
        obtain rfl := hEnds.eq_of_lost nofun
        refine (writeLog_claims _ _).andThen ?_
        rintro _ _ _ rfl
        exact pure_claims fun _ => rfl

theorem claimEach_claims (now : Timestamp) (schedules : List Schedule) :
    (claimEach now schedules).Fulfills claimTerms
      (fun _ claimed held => claimed = [] → held = store) past store := by
  induction schedules generalizing past store with
  | nil => exact pure_claims fun _ => rfl
  | cons schedule rest ih =>
      unfold claimEach
      refine (claimDue_claims now schedule).andThen fun _ won between hWon => ?_
      refine ih.andThen fun _ others held hOthers => ?_
      cases won with
      | true => exact pure_claims nofun
      | false => exact pure_claims fun hNone => (hOthers hNone).trans (hWon rfl)

/-- Without a claimed schedule the first part of a sweep changes nothing, whether it failed
or not. -/
theorem claimAllDue_claims (now : Timestamp) :
    (claimAllDue now).Fulfills claimTerms
      (fun _ result held => result.toOption.getD [] = [] → held = store) past store := by
  unfold claimAllDue
  refine (ask_claims (.store .schedules (.dueSchedules now)) trivial).andThen ?_
  intro _ found held hEnds
  obtain rfl := hEnds.eq_of_read rfl
  match found with
  | .error error => exact pure_claims fun _ => rfl
  | .ok due =>
      refine (claimEach_claims now due).andThen fun _ claimed _ hClaimed => ?_
      exact pure_claims hClaimed

/-! ## Deliveries side by side -/

/-- In whatever order they go on, each claimed schedule gets an entry. -/
theorem sweepDeliveries_timely (context : DeliveryContext) (claimed : List Schedule)
    (order : List Nat) :
    (Program.sideBySide order (sweepDeliveries context claimed)).Fulfills timelyTerms
      (fun _ entries _ => entries.length = claimed.length) past store := by
  have hAgree : Program.Agree (fun _ => timelyShare) timelyShare Request.EndsDisturbed := {
    rely := fun _ _ _ => id
    allows := fun _ _ _ => id
    apart := fun _ _ _ _ _ _ _ _ _ => trivial }
  have hEach : ∀ (i : Nat) (program : Program SweepEntry),
      (sweepDeliveries context claimed)[i]? = some program →
        program.Fulfills timelyTerms (fun _ _ _ => True) [] store := by
    intro i program hProgram
    obtain ⟨schedule, -, rfl⟩ := List.mem_map.mp (List.mem_of_getElem? hProgram)
    refine (deliver_timely context _ _ true).andThen fun _ _ _ _ => ?_
    exact pure_timely _
  refine (Program.sideBySide_fulfills hAgree order hEach).imp ?_
  rintro _ entries _ ⟨hLength, -⟩
  rw [hLength, sweepDeliveries, List.length_map]

end Walk

theorem Program.sideBySide_nil {α : Type} (order : List Nat) :
    sideBySide order ([] : List (Program α)) = done [] := by
  induction order with
  | nil => rfl
  | cons next order ih => exact ih

/-! ## Sweeps -/

theorem closeSweep_run (entries : List SweepEntry) (world : World) :
    ∃ later, (closeSweep entries).run world = (.ok entries, later) ∧ later.store = world.store ∧
      later.clock = world.clock := by
  unfold closeSweep
  split
  · exact ⟨world.addLog _, rfl, rfl, rfl⟩
  · exact ⟨world, rfl, rfl, rfl⟩

/-- The deliveries of a sweep that came to their end. -/
theorem runTogether_disturbed {context : DeliveryContext} {claimed : List Schedule}
    {moment later : Nat} {world last : World} {entries : List SweepEntry}
    (hClock : world.clock.IsValid)
    (hRun : Program.runTogether context.settings.maxLockAttempts moment
      (sweepDeliveries context claimed) world = (.ok entries, later, last)) :
    (world.store.IsTimely → last.store.IsTimely) ∧ last.clock = world.clock ∧
      (entries = [] → claimed = [] ∧ last.store = world.store) := by
  -- A timeline is one order of requests, and the terms hold in every order.
  obtain ⟨order, hOrder⟩ := Program.exists_run_eq_runTogether context.settings.maxLockAttempts
    moment (sweepDeliveries context claimed) world
  rw [hRun] at hOrder
  have hTerms : (Program.sideBySide order (sweepDeliveries context claimed)).Fulfills timelyTerms
      _ [] world.store := sweepDeliveries_timely context claimed order
  obtain ⟨hTimely, hStill, hPost⟩ := hTerms.run_disturbed (fun _ _ => id) hClock
  rw [hOrder] at hTimely hStill hPost
  refine ⟨hTimely, hStill, ?_⟩
  rintro rfl
  obtain ⟨-, hLength⟩ := hPost [] rfl
  obtain rfl : claimed = [] := List.eq_nil_of_length_eq_zero hLength.symm
  have hNothing : Program.sideBySide order (sweepDeliveries context []) = .done [] :=
    Program.sideBySide_nil order
  rw [hNothing] at hOrder
  exact ⟨rfl, congrArg World.store (Prod.mk.inj hOrder).2.symm⟩

/-- A sweep brings only instants that exist into the store, the clock keeps its time, and
without entries nothing changes. -/
theorem sweepAt_disturbed {context : DeliveryContext} {moment later : Nat} {now : Timestamp}
    {world swept : World} {result : Except UpkeepError (List SweepEntry)}
    (hClock : world.clock.IsValid)
    (hSweep : sweepAt context moment now world = (.ok result, later, swept)) :
    (world.store.IsTimely → swept.store.IsTimely) ∧ swept.clock = world.clock ∧
      (result.toOption.getD [] = [] → swept.store = world.store) := by
  have hTerms : (claimAllDue now).Fulfills claimTerms _ [] world.store := claimAllDue_claims now
  obtain ⟨hTimely, hStill, hPost⟩ := hTerms.run_disturbed (fun _ _ => id) hClock
  unfold sweepAt at hSweep
  match hClaims : (claimAllDue now).run world with
  | (.error fault, reached) =>
      rw [hClaims] at hSweep
      cases hSweep
  | (.ok (.error error), reached) =>
      rw [hClaims] at hSweep hTimely hStill hPost
      cases hSweep
      obtain ⟨-, hSame⟩ := hPost _ rfl
      exact ⟨hTimely, hStill, fun _ => hSame rfl⟩
  | (.ok (.ok claimed), reached) =>
      rw [hClaims] at hSweep hTimely hStill hPost
      simp only at hSweep hTimely hStill hPost
      obtain ⟨-, hSame⟩ := hPost _ rfl
      match hTogether : Program.runTogether context.settings.maxLockAttempts moment
          (sweepDeliveries context claimed) reached with
      | (.error fault, ended, last) =>
          rw [hTogether] at hSweep
          cases hSweep
      | (.ok entries, ended, last) =>
          rw [hTogether] at hSweep
          obtain ⟨hLastTimely, hLastStill, hIdle⟩ :=
            runTogether_disturbed (hStill ▸ hClock) hTogether
          obtain ⟨closed, hClose, hStore, hCloseStill⟩ := closeSweep_run entries last
          simp only [hClose] at hSweep
          cases hSweep
          rw [hStore, hCloseStill]
          refine ⟨hLastTimely ∘ hTimely, hLastStill.trans hStill, fun hNone => ?_⟩
          obtain ⟨hUnclaimed, hUndelivered⟩ := hIdle hNone
          exact hUndelivered.trans (hSame hUnclaimed)

end PipelineUpkeep

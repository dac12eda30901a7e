import PipelineUpkeep.Proofs.ContractRuns
import PipelineUpkeep.Proofs.ScheduleWrites
/-!
# The claims of a sweep

A sweep claims the due schedules one after the other.  The store may refuse to advance some
of them, by an error or by the answer that the next run is not what was observed.  Without
other writers the sweep claims exactly the due schedules that are not refused and whose
expressions have a further instant: each of them is decided by its own row, whatever becomes
of those before it.
-/

namespace PipelineUpkeep

open Time

/-! ## Refused advances -/

/-- The schedules whose advances a store refuses, and what it answers. -/
structure Refusals where
  answer? : Nat → Option (Except StoreError Bool)
  /-- Nobody is told to have won. -/
  lost : ∀ id, answer? id ≠ some (.ok true)

namespace Refusals

/-- Every advance is performed. -/
def none : Refusals := ⟨fun _ => .none, fun _ => nofun⟩

/-- The answer to a request, if it is refused. -/
def reply? (refusals : Refusals) : (asked : Request) → Option asked.Answer
  | .store _ (.advanceNextRun id _ _) => refusals.answer? id
  | _ => .none

theorem reply?_none (asked : Request) : none.reply? asked = .none := by
  cases asked with
  | store access call => cases call <;> rfl
  | _ => rfl

end Refusals

/-- Answer a request; one that is refused leaves the world alone. -/
def World.answerUnless (refusals : Refusals) (asked : Request) (world : World) :
    asked.Answer × World :=
  match refusals.reply? asked with
  | some reply => (reply, world)
  | none => world.answer asked

theorem World.answerUnless_none (asked : Request) (world : World) :
    world.answerUnless .none asked = world.answer asked := by
  rw [answerUnless, Refusals.reply?_none]

/-- A program is left alone with the store, but for advances that are refused. -/
def Contract.aloneUnless (refusals : Refusals) (clock : Timestamp) : Contract where
  others before after := after = before
  refl _ := rfl
  trans := fun h hLater => hLater.trans h
  ends asked before answer after :=
    match refusals.reply? asked with
    | some reply => answer = reply ∧ after = before
    | none => (Contract.alone clock).ends asked before answer after
  permits _ _ _ := True
  mayFault _ := False

/-- In a still world a program ends, whichever advances are refused. -/
theorem Program.Fulfills.run_aloneUnless {α : Type} {post : List Exchange → α → Store → Prop}
    {program : Program α} {past : List Exchange} {world : World} {refusals : Refusals}
    (h : program.Fulfills (.aloneUnless refusals world.clock) post past world.store)
    (hQuiet : world.disturbance = .none) :
    ∃ value made, (program.runWith (World.answerUnless refusals) world).1 = .ok value ∧
      post made value (program.runWith (World.answerUnless refusals) world).2.store := by
  have hEnds (exchanges : List Exchange) (later : World) (asked : Request)
      (hLater : later.IsStill world.clock) :
      (Contract.aloneUnless refusals world.clock).ends asked later.store
          (later.answerUnless refusals asked).1 (later.answerUnless refusals asked).2.store ∧
        (later.answerUnless refusals asked).2.IsStill world.clock := by
    unfold World.answerUnless Contract.aloneUnless
    simp only
    split
    · exact ⟨⟨rfl, rfl⟩, hLater⟩
    · exact hLater.answer asked
  obtain ⟨value, made, hValue, -, hPost⟩ := Fulfills.runWith World.store
    (fun _ later => later.IsStill world.clock) hEnds (fun _ hFault => hFault) ⟨rfl, hQuiet⟩ h
  exact ⟨value, made, hValue, hPost⟩

/-! ## Claims -/

/-- The expression of the schedule has a further instant, and its advance is not refused. -/
def Schedule.isClaimable (refusals : Refusals) (now : Timestamp) (row : Schedule) : Bool :=
  (refusals.answer? row.id).isNone && (row.nextRunAfter now).toOption.isSome

theorem Schedule.isClaimable_iff {refusals : Refusals} {now : Timestamp} {row : Schedule} :
    row.isClaimable refusals now = true ↔
      refusals.answer? row.id = none ∧ ∃ next, row.nextRunAfter now = .ok next := by
  unfold isClaimable
  rw [Bool.and_eq_true, Option.isNone_iff_eq_none]
  refine and_congr_right' ?_
  cases row.nextRunAfter now with
  | ok next => exact ⟨fun _ => ⟨next, rfl⟩, fun _ => rfl⟩
  | error error => exact ⟨nofun, nofun⟩

namespace Store

/-- The store after the claim of a schedule. -/
def afterClaim (now : Timestamp) (store : Store) (row : Schedule) : Store :=
  match row.nextRunAfter now with
  | .ok next => store.withNextRun row.id next
  | .error _ => store

/-- The store after the claims of some schedules. -/
def afterClaims (store : Store) (now : Timestamp) (rows : List Schedule) : Store :=
  rows.foldl (afterClaim now) store

variable {store : Store} {now : Timestamp} {row : Schedule} {rows : List Schedule}

theorem afterClaim_of_ok {next : Timestamp} (h : row.nextRunAfter now = .ok next) :
    store.afterClaim now row = store.withNextRun row.id next := by
  rw [afterClaim, h]

theorem find?_afterClaim_of_ne {id : Nat} (h : row.id ≠ id) :
    (store.afterClaim now row).schedules.find? id = store.schedules.find? id := by
  unfold afterClaim
  split
  · rw [find?_withNextRun]
    simp only [if_neg (Ne.symm h), Option.map_id']
  · rfl

theorem find?_afterClaims_of_ne {id : Nat} (h : ∀ row ∈ rows, row.id ≠ id) :
    (store.afterClaims now rows).schedules.find? id = store.schedules.find? id := by
  induction rows generalizing store with
  | nil => rfl
  | cons row rest ih =>
      have hRest : ∀ other ∈ rest, other.id ≠ id := fun other hOther =>
        h other (List.mem_cons_of_mem _ hOther)
      exact (ih hRest).trans (find?_afterClaim_of_ne (h row List.mem_cons_self))

/-- A stored schedule that is claimed gets its further instant. -/
theorem find?_afterClaims_of_mem {next : Timestamp} (hRows : rows.Pairwise (·.id < ·.id))
    (hStored : store.schedules.find? row.id = some row) (h : row ∈ rows)
    (hNext : row.nextRunAfter now = .ok next) :
    (store.afterClaims now rows).schedules.find? row.id = some { row with nextRunAt := next } := by
  induction rows generalizing store with
  | nil => cases h
  | cons first rest ih =>
      obtain ⟨hFirst, hRest⟩ := List.pairwise_cons.mp hRows
      rcases List.mem_cons.mp h with rfl | hLater
      · have hApart : ∀ other ∈ rest, other.id ≠ row.id := fun other hOther =>
          Nat.ne_of_gt (hFirst other hOther)
        have hClaim : (store.afterClaim now row).schedules.find? row.id =
            some { row with nextRunAt := next } := by
          rw [afterClaim_of_ok hNext]
          exact find?_withNextRun_self hStored next
        exact (find?_afterClaims_of_ne hApart).trans hClaim
      · have hNe : first.id ≠ row.id := Nat.ne_of_lt (hFirst row hLater)
        exact ih hRest ((find?_afterClaim_of_ne hNe).trans hStored) hLater

/-- The due schedules are stored, and stand in the order of their identifiers. -/
theorem pairwise_dueSchedules (store : Store) (now : Timestamp) :
    (store.dueSchedules now).Pairwise (·.id < ·.id) :=
  store.schedules.sorted.sublist List.filter_sublist

theorem find?_of_mem_dueSchedules (h : row ∈ store.dueSchedules now) :
    store.schedules.find? row.id = some row :=
  store.schedules.find?_key (List.mem_filter.mp h).1

/-- The schedules that a sweep is to claim. -/
def claimable (store : Store) (refusals : Refusals) (now : Timestamp) : List Schedule :=
  (store.dueSchedules now).filter (·.isClaimable refusals now)

theorem pairwise_claimable (store : Store) (refusals : Refusals) (now : Timestamp) :
    (store.claimable refusals now).Pairwise (·.id < ·.id) :=
  (store.pairwise_dueSchedules now).sublist List.filter_sublist

theorem mem_claimable_iff {refusals : Refusals} :
    row ∈ store.claimable refusals now ↔
      store.schedules.find? row.id = some row ∧ row.isDue now = true ∧
        refusals.answer? row.id = none ∧ ∃ next, row.nextRunAfter now = .ok next := by
  rw [claimable, List.mem_filter, Schedule.isClaimable_iff, dueSchedules, List.mem_filter,
    and_assoc, Table.find?_eq_some_iff]
  exact and_congr_left' (and_iff_left rfl).symm

end Store

section Walk

variable {refusals : Refusals} {clock now : Timestamp} {past : List Exchange} {store : Store}

theorem pure_aloneUnless {α : Type} {post : List Exchange → α → Store → Prop} {value : α}
    (h : post past value store) :
    (pure value : Program α).Fulfills (.aloneUnless refusals clock) post past store := by
  rintro _ rfl
  exact h

theorem ask_performed (asked : Request) (h : refusals.reply? asked = none) :
    (Program.ask asked).Fulfills (.aloneUnless refusals clock)
      (fun _ answer held => (Contract.alone clock).ends asked store answer held) past store := by
  rintro before rfl
  refine ⟨trivial, fun answer after hEnds held hHeld => ?_⟩
  simp only [Contract.aloneUnless, h] at hEnds
  rw [hHeld]
  exact hEnds

theorem ask_refused (asked : Request) {reply : asked.Answer}
    (h : refusals.reply? asked = some reply) :
    (Program.ask asked).Fulfills (.aloneUnless refusals clock)
      (fun _ answer held => answer = reply ∧ held = store) past store := by
  rintro before rfl
  refine ⟨trivial, fun answer after hEnds held hHeld => ?_⟩
  simp only [Contract.aloneUnless, h] at hEnds
  rw [hHeld]
  exact hEnds

theorem writeLog_aloneUnless (level : LogLevel) (message : String) :
    (Program.writeLog level message).Fulfills (.aloneUnless refusals clock)
      (fun _ _ held => held = store) past store :=
  (ask_performed (.log _) rfl).imp fun _ _ _ h => h.1

/-- A stored schedule is claimed exactly if it is claimable. -/
theorem claimDue_aloneUnless {row : Schedule}
    (hRow : store.schedules.find? row.id = some row) :
    (claimDue now row).Fulfills (.aloneUnless refusals clock)
      (fun _ won held => won = row.isClaimable refusals now ∧
        held = if won then store.afterClaim now row else store) past store := by
  unfold claimDue Schedule.isClaimable Store.afterClaim
  cases hNext : row.nextRunAfter now with
  | error error =>
      refine (writeLog_aloneUnless _ _).andThen ?_
      rintro _ _ _ rfl
      exact pure_aloneUnless ⟨(Bool.and_false _).symm, rfl⟩
  | ok next =>
      cases hReply : refusals.answer? row.id with
      | none =>
          refine (ask_performed (.store .schedules (.advanceNextRun ..)) hReply).andThen ?_
          rintro _ result held ⟨hCall, -⟩
          have hAdvance : store.advanceNextRun row.id row.nextRunAt next = (result, held) := hCall
          rw [Store.advanceNextRun_of_find? hRow] at hAdvance
          obtain ⟨rfl, rfl⟩ := Prod.mk.inj hAdvance
          exact pure_aloneUnless ⟨rfl, rfl⟩
      | some reply =>
          refine (ask_refused (.store .schedules (.advanceNextRun ..)) hReply).andThen ?_
          rintro _ result _ ⟨rfl, rfl⟩
          match result, hReply with
          | .ok true, hReply => exact absurd hReply (refusals.lost row.id)
          | .ok false, _ | .error _, _ =>
              refine (writeLog_aloneUnless _ _).andThen ?_
              rintro _ _ _ rfl
              exact pure_aloneUnless ⟨rfl, rfl⟩

/-- Of stored schedules exactly the claimable ones are claimed. -/
theorem claimEach_aloneUnless {rows : List Schedule} (hRows : rows.Pairwise (·.id < ·.id))
    (hStored : ∀ row ∈ rows, store.schedules.find? row.id = some row) :
    (claimEach now rows).Fulfills (.aloneUnless refusals clock)
      (fun _ claimed held => claimed = rows.filter (·.isClaimable refusals now) ∧
        held = store.afterClaims now claimed) past store := by
  induction rows generalizing past store with
  | nil =>
      exact pure_aloneUnless ⟨rfl, rfl⟩
  | cons row rest ih =>
      obtain ⟨hFirst, hRest⟩ := List.pairwise_cons.mp hRows
      have hRestStored (other : Schedule) (hOther : other ∈ rest) :
          store.schedules.find? other.id = some other :=
        hStored other (List.mem_cons_of_mem _ hOther)
      unfold claimEach
      refine (claimDue_aloneUnless (hStored row List.mem_cons_self)).andThen ?_
      rintro later won held ⟨hWon, rfl⟩
      rw [List.filter_cons, ← hWon]
      cases won with
      | true =>
          -- The claim of one schedule leaves the rows of the others as they were listed.
          have hOthers (other : Schedule) (hOther : other ∈ rest) :
              (store.afterClaim now row).schedules.find? other.id = some other :=
            (Store.find?_afterClaim_of_ne (Nat.ne_of_lt (hFirst other hOther))).trans
              (hRestStored other hOther)
          refine (ih hRest hOthers).andThen ?_
          rintro _ claimed _ ⟨rfl, rfl⟩
          exact pure_aloneUnless ⟨rfl, rfl⟩
      | false =>
          refine (ih hRest hRestStored).andThen ?_
          rintro _ claimed _ ⟨rfl, rfl⟩
          exact pure_aloneUnless ⟨rfl, rfl⟩

theorem claimAllDue_aloneUnless :
    (claimAllDue now).Fulfills (.aloneUnless refusals clock)
      (fun _ result held => result = .ok (store.claimable refusals now) ∧
        held = store.afterClaims now (store.claimable refusals now)) past store := by
  unfold claimAllDue
  refine (ask_performed (.store .schedules (.dueSchedules now)) rfl).andThen ?_
  rintro _ found held ⟨hFound, -⟩
  obtain ⟨rfl, rfl⟩ := Prod.mk.inj hFound
  refine (claimEach_aloneUnless (store.pairwise_dueSchedules now)
    fun row => Store.find?_of_mem_dueSchedules).andThen ?_
  rintro _ claimed _ ⟨rfl, rfl⟩
  exact pure_aloneUnless ⟨rfl, rfl⟩

end Walk

end PipelineUpkeep

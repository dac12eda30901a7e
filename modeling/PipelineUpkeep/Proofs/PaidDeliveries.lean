import PipelineUpkeep.Proofs.ClaimLedger
import PipelineUpkeep.Proofs.NextInstant
/-!
# Deliveries and sweeps pay for what they ask

A delivery that claims its schedule earns the claim that its request costs.  A sweep
earns one claim for every schedule it goes on to deliver, so that its deliveries,
which claim nothing themselves, can share them out.  The instant that is claimed is
later than the one it replaces: a claim is made at a time when the schedule is due,
and the next run lies after that time.
-/

namespace PipelineUpkeep

open Time Program

theorem writeLog_isNeutral (level : LogLevel) (message : String) :
    (writeLog level message).OnlyAsks Request.isNeutral := onlyAsks_ask rfl

theorem reportFailure_isNeutral (id : Nat) (message : String) :
    (reportFailure id message).OnlyAsks Request.isNeutral := by
  unfold reportFailure
  refine (onlyAsks_ask rfl).bind fun _ => ?_
  refine (writeLog_isNeutral _ _).bind fun _ => ?_
  exact (onlyAsks_ask rfl).bind fun _ => trivial

variable {scheduleId spare : Nat}

/-- A row is found under its own identifier. -/
theorem schedule_affords (id : Nat) :
    (Program.schedule id).Affords scheduleId
      (fun kept result => kept = spare ∧ ∀ row, result = .ok (some row) → row.id = id) spare := by
  apply affords_ask rfl
  rintro answer ⟨before, after, hOccurs⟩
  refine ⟨rfl, fun row hRow => ?_⟩
  have hAnswer : answer = .ok (before.schedules.find? id) := (congrArg Prod.fst hOccurs).symm
  rw [hAnswer] at hRow
  have hFound : before.schedules.find? id = some row := Except.ok.inj hRow
  exact ((before.schedules.find?_eq_some_iff id row).mp hFound).2

/-- What was loaded is the schedule that was asked for. -/
def LoadsSchedule (id : Nat) : Except StoreError (Option (Schedule × Project × User)) → Prop
  | .ok (some (row, _, _)) => row.id = id
  | _ => True

theorem loadDelivery_affords (id userId : Nat) :
    (loadDelivery id userId).Affords scheduleId
      (fun kept result => kept = spare ∧ LoadsSchedule id result) spare := by
  unfold loadDelivery
  refine (schedule_affords id).andThen ?_
  rintro _ result ⟨rfl, hId⟩
  match result with
  | .error _ | .ok none => exact ⟨rfl, trivial⟩
  | .ok (some row) =>
      refine (onlyAsks_ask rfl).affords.andThen ?_
      rintro _ project rfl
      match project with
      | .error _ | .ok none => exact ⟨rfl, trivial⟩
      | .ok (some project) =>
          refine (onlyAsks_ask rfl).affords.andThen ?_
          rintro _ user rfl
          match user with
          | .error _ | .ok none => exact ⟨rfl, trivial⟩
          | .ok (some user) => exact ⟨rfl, hId row rfl⟩

/-- A request for a pipeline costs one claim of its schedule. -/
theorem fireSchedule_affords (context : DeliveryContext) (row : Schedule) (user : User)
    (hClaim : row.id = scheduleId → 0 < spare) :
    (fireSchedule context row user).Affords scheduleId (fun _ _ => True) spare := by
  unfold fireSchedule
  refine ⟨⟨trivial, fun hFires => ?_⟩, fun answer _ => ?_⟩
  · change (some row.id == some scheduleId) = true at hFires
    exact hClaim (by simpa using hFires)
  -- What follows the request is neutral, whatever is left to spare.
  refine (OnlyAsks.affords ?_).imp fun _ _ _ => trivial
  have hCreation := (createForRequest_engineWork context.rules context.settings
    (CreationRequest.ofSchedule row user)).imp fun _ => Request.isNeutral_of_isEngineWork
  refine hCreation.bind fun response => ?_
  match response with
  | .error error => exact reportFailure_isNeutral _ _
  | .ok response =>
      simp only
      split
      · refine (onlyAsks_ask rfl).bind fun result => ?_
        match result with
        | .error _ => exact (writeLog_isNeutral _ _).bind fun _ => trivial
        | .ok () => trivial
      · exact (writeLog_isNeutral _ _).bind fun _ => trivial

/-- An advance of a next run to a later instant earns a claim if it succeeds. -/
theorem advanceNextRun_affords {id : Nat} {observed next : Timestamp} (hLater : observed < next) :
    (Program.advanceNextRun id observed next).Affords scheduleId
      (fun kept result => spare ≤ kept ∧
        (result = .ok true → id = scheduleId → spare < kept)) spare := by
  refine ⟨⟨hLater, nofun⟩, fun answer _ => ?_⟩
  match answer with
  | .ok true =>
      by_cases hId : id = scheduleId
      · have hSettle : Exchange.settle scheduleId
            ⟨.store .schedules (.advanceNextRun id observed next), .ok true⟩ spare = spare + 1 := by
          simp only [Exchange.settle, Exchange.advance?, if_pos hId]
        rw [hSettle]
        exact ⟨Nat.le_succ spare, fun _ _ => Nat.lt_succ_self spare⟩
      · have hSettle : Exchange.settle scheduleId
            ⟨.store .schedules (.advanceNextRun id observed next), .ok true⟩ spare = spare := by
          simp only [Exchange.settle, Exchange.advance?, if_neg hId]
          rfl
        rw [hSettle]
        exact ⟨Nat.le_refl spare, fun _ hSame => absurd hSame hId⟩
  | .ok false | .error _ => exact ⟨Nat.le_refl _, nofun⟩

/-- A claim made when the schedule is due sets its next run to a later instant. -/
theorem claimSchedule_affords {row : Schedule} {now : Timestamp} (hDue : row.nextRunAt ≤ now) :
    (claimSchedule row now).Affords scheduleId
      (fun kept result => spare ≤ kept ∧
        (result = .ok true → row.id = scheduleId → spare < kept)) spare := by
  unfold claimSchedule
  cases hNext : row.nextRunAfter now with
  | error error => exact ⟨Nat.le_refl _, nofun⟩
  | ok next =>
      have hLater : row.nextRunAt < next :=
        Timestamp.lt_of_le_of_lt hDue (Schedule.lt_of_nextRunAfter hNext)
      refine (advanceNextRun_affords hLater).andThen ?_
      rintro kept result ⟨hKept, hWon⟩
      match result with
      | .error _ => exact ⟨hKept, nofun⟩
      | .ok won =>
          refine ⟨hKept, ?_⟩
          rintro ⟨⟩
          exact hWon rfl

/-- A delivery that claims its schedule pays for its request. -/
theorem deliver_affords {context : DeliveryContext}
    (hFlag : ∀ project, context.rules.scheduleWorker project = true) (id userId : Nat) :
    (deliver context id userId false).Affords scheduleId (fun _ _ => True) spare := by
  unfold deliver
  refine (loadDelivery_affords id userId).andThen ?_
  rintro _ loaded ⟨rfl, -⟩
  match loaded with
  | .error _ => exact (reportFailure_isNeutral _ _).affords.imp fun _ _ _ => trivial
  | .ok none => exact (writeLog_isNeutral _ _).affords.andThen fun _ _ _ => trivial
  | .ok (some (row, project, user)) =>
      simp only [hFlag, Bool.not_false, Bool.and_self, if_true]
      refine (onlyAsks_ask rfl).affords.andThen ?_
      rintro _ now rfl
      split
      · trivial
      · rename_i hDue
        refine (claimSchedule_affords hDue).andThen ?_
        rintro kept claimed ⟨-, hWon⟩
        match claimed with
        | .error _ => exact (reportFailure_isNeutral _ _).affords.imp fun _ _ _ => trivial
        | .ok false => exact (writeLog_isNeutral _ _).affords.andThen fun _ _ _ => trivial
        | .ok true =>
            apply fireSchedule_affords
            intro hId
            exact Nat.zero_lt_of_lt (hWon rfl hId)

/-- A delivery of a schedule that its caller has claimed needs that claim. -/
theorem deliver_claimed_affords (context : DeliveryContext) (id userId : Nat)
    (hClaim : id = scheduleId → 0 < spare) :
    (deliver context id userId true).Affords scheduleId (fun _ _ => True) spare := by
  unfold deliver
  refine (loadDelivery_affords id userId).andThen ?_
  rintro _ loaded ⟨rfl, hId⟩
  match loaded with
  | .error _ => exact (reportFailure_isNeutral _ _).affords.imp fun _ _ _ => trivial
  | .ok none => exact (writeLog_isNeutral _ _).affords.andThen fun _ _ _ => trivial
  | .ok (some (row, project, user)) =>
      simp only [Bool.not_true, Bool.and_false, Bool.false_eq_true, if_false]
      apply fireSchedule_affords
      intro hSame
      have hRow : row.id = id := hId
      exact hClaim (hRow.symm.trans hSame)

/-- How many claims of the schedule there are among those claimed. -/
def claimsOf (scheduleId : Nat) (claimed : List Schedule) : Nat :=
  claimed.countP (·.id == scheduleId)

theorem claimsOf_cons (row : Schedule) (rest : List Schedule) :
    claimsOf scheduleId (row :: rest) =
      claimsOf scheduleId rest + if row.id = scheduleId then 1 else 0 := by
  simp [claimsOf, List.countP_cons]

/-- A due schedule that is claimed earns its claim. -/
theorem claimDue_affords {row : Schedule} {now : Timestamp} (hDue : row.nextRunAt ≤ now) :
    (claimDue now row).Affords scheduleId
      (fun kept won => spare ≤ kept ∧
        (won = true → row.id = scheduleId → spare < kept)) spare := by
  unfold claimDue
  cases hNext : row.nextRunAfter now with
  | error error =>
      refine (writeLog_isNeutral _ _).affords.andThen ?_
      rintro _ _ rfl
      exact ⟨Nat.le_refl _, nofun⟩
  | ok next =>
      have hLater : row.nextRunAt < next :=
        Timestamp.lt_of_le_of_lt hDue (Schedule.lt_of_nextRunAfter hNext)
      refine (advanceNextRun_affords hLater).andThen ?_
      rintro kept result ⟨hKept, hWon⟩
      match result with
      | .ok true => exact ⟨hKept, fun _ => hWon rfl⟩
      | .ok false | .error _ =>
          refine (writeLog_isNeutral _ _).affords.andThen ?_
          rintro _ _ rfl
          exact ⟨hKept, nofun⟩

theorem claimEach_affords {rows : List Schedule} {now : Timestamp}
    (hDue : ∀ row ∈ rows, row.nextRunAt ≤ now) :
    (claimEach now rows).Affords scheduleId
      (fun kept claimed => spare + claimsOf scheduleId claimed ≤ kept) spare := by
  induction rows generalizing spare with
  | nil => exact Nat.le_refl _
  | cons row rest ih =>
      have hRest : ∀ other ∈ rest, other.nextRunAt ≤ now :=
        fun other hOther => hDue other (List.mem_cons_of_mem _ hOther)
      unfold claimEach
      refine (claimDue_affords (hDue row List.mem_cons_self)).andThen ?_
      rintro kept won ⟨hKept, hWon⟩
      refine (ih hRest).andThen fun left others hOthers => ?_
      show spare + claimsOf scheduleId (if won then row :: others else others) ≤ left
      cases won with
      | false =>
          rw [if_neg Bool.false_ne_true]
          omega
      | true =>
          rw [if_pos rfl, claimsOf_cons]
          by_cases hId : row.id = scheduleId
          · have hEarned : spare < kept := hWon rfl hId
            rw [if_pos hId]
            omega
          · rw [if_neg hId]
            omega

/-- The schedules that a sweep delivers have earned their claims. -/
theorem claimAllDue_affords (now : Timestamp) :
    (claimAllDue now).Affords scheduleId
      (fun kept result => ∀ claimed, result = .ok claimed → claimsOf scheduleId claimed ≤ kept)
      spare := by
  have hDue : (Program.dueSchedules now).Affords scheduleId
      (fun _ result => ∀ rows, result = .ok rows → ∀ row ∈ rows, row.nextRunAt ≤ now) spare := by
    apply affords_ask rfl
    rintro answer ⟨before, after, hOccurs⟩ rows hRows row hRow
    have hAnswer : answer = .ok (before.dueSchedules now) := (congrArg Prod.fst hOccurs).symm
    rw [hAnswer] at hRows
    have hList : before.dueSchedules now = rows := Except.ok.inj hRows
    rw [← hList] at hRow
    have hIsDue := (List.mem_filter.mp hRow).2
    rw [Schedule.isDue, Bool.and_eq_true, decide_eq_true_iff] at hIsDue
    exact hIsDue.2
  unfold claimAllDue
  refine hDue.andThen fun kept result hRows => ?_
  match result with
  | .error _ => exact nofun
  | .ok rows =>
      refine (claimEach_affords (hRows rows rfl)).andThen fun left claimed hClaimed => ?_
      rintro _ ⟨⟩
      exact Nat.le_of_add_left_le hClaimed

/-- The deliveries of a sweep share out the claims of their schedules. -/
theorem sweepDeliveries_affordTogether (context : DeliveryContext) (claimed : List Schedule) :
    AffordTogether scheduleId (sweepDeliveries context claimed) (claimsOf scheduleId claimed) := by
  induction claimed with
  | nil => trivial
  | cons row rest ih =>
      rw [claimsOf_cons]
      refine ⟨if row.id = scheduleId then 1 else 0, claimsOf scheduleId rest, ?_, ?_, ih⟩
      · omega
      · refine (deliver_claimed_affords context row.id row.ownerId ?_).andThen fun _ _ _ => trivial
        intro hId
        rw [if_pos hId]
        exact Nat.one_pos

/-- A sweep pays for the requests of all its deliveries. -/
theorem sweepInOrder_affords (context : DeliveryContext) (now : Timestamp) (order : List Nat) :
    (sweepInOrder context now order).Affords scheduleId (fun _ _ => True) spare := by
  unfold sweepInOrder
  refine (claimAllDue_affords now).andThen fun kept result hClaims => ?_
  match result with
  | .error _ => trivial
  | .ok claimed =>
      -- What was earned by claiming is what the deliveries need together.
      have hTogether := (sweepDeliveries_affordTogether context claimed).mono (hClaims claimed rfl)
      refine (hTogether.sideBySide order).andThen fun left entries _ => ?_
      have hClose : (closeSweep entries).OnlyAsks Request.isNeutral := by
        unfold closeSweep
        split
        · exact (writeLog_isNeutral _ _).bind fun _ => trivial
        · trivial
      exact hClose.affords.andThen fun _ _ _ => trivial

end PipelineUpkeep

import PipelineUpkeep.Proofs.Discipline
import PipelineUpkeep.Proofs.SideBySide
/-!
# The ledger of claims

A schedule may ask for a pipeline once for each time its next run was advanced.  For a
fixed schedule, a successful advance is worth one claim and a request for a pipeline
costs one; `Program.Affords` checks that a program pays for every request out of what
it has to spare and what it earns on the way, whatever it is answered.  Programs side
by side may share what there is to spare.
-/

namespace PipelineUpkeep

open Time

variable (scheduleId : Nat)

/-- The request asks for a pipeline of the schedule. -/
def Request.fires : Request → Bool
  | .creation request => request.scheduleId == some scheduleId
  | _ => false

/-- A next run may only be set to a later instant. -/
def Request.MovesForward : Request → Prop
  | .store _ (.advanceNextRun _ observed next) => observed < next
  | _ => True

/-- Neither asks for a pipeline nor advances a next run. -/
def Request.isNeutral : Request → Bool
  | .creation _ | .store _ (.advanceNextRun ..) => false
  | _ => true

/-- The next run that an exchange has won, and the one it has set instead. -/
def Exchange.advance? : Exchange → Option (Timestamp × Timestamp)
  | ⟨.store _ (.advanceNextRun id observed next), .ok true⟩ =>
      if id = scheduleId then some (observed, next) else none
  | _ => none

/-- How often a pipeline of the schedule was asked for. -/
def firings (past : List Exchange) : Nat :=
  past.countP (·.asked.fires scheduleId)

/-- The next runs of the schedule that were won and set, in order. -/
def advances (past : List Exchange) : List (Timestamp × Timestamp) :=
  past.filterMap (·.advance? scheduleId)

/-- No pipeline was asked for without a claim. -/
def Balanced (past : List Exchange) : Prop :=
  firings scheduleId past ≤ (advances scheduleId past).length

/-- Next runs move forward, and no pipeline is asked for without a claim. -/
def ledger : Discipline where
  others _ _ := True
  refl _ := trivial
  trans _ _ := trivial
  permits past _ asked := Balanced scheduleId past ∧ asked.MovesForward
  mayFault := Balanced scheduleId

/-- The request can be paid for out of `spare` claims. -/
def Request.IsAffordable (spare : Nat) (asked : Request) : Prop :=
  asked.MovesForward ∧ (asked.fires scheduleId = true → 0 < spare)

/-- The claims to spare after an exchange. -/
def Exchange.settle (exchange : Exchange) (spare : Nat) : Nat :=
  match exchange.advance? scheduleId with
  | some _ => spare + 1
  | none => if exchange.asked.fires scheduleId then spare - 1 else spare

/-- Some store gives this answer. -/
def Request.MayAnswer (asked : Request) (answer : asked.Answer) : Prop :=
  ∃ before after, asked.Occurs before answer after

section Exchanges

variable {scheduleId}

theorem balanced_iff {past : List Exchange} :
    Balanced scheduleId past ↔
      past.countP (·.asked.fires scheduleId) ≤ past.countP (·.advance? scheduleId |>.isSome) := by
  rw [Balanced, firings, advances, List.length_filterMap_eq_countP]

theorem Request.fires_of_isNeutral {asked : Request} (h : asked.isNeutral = true) :
    ¬ asked.fires scheduleId = true := by
  unfold fires
  split
  · cases h
  · exact Bool.false_ne_true

theorem Request.movesForward_of_isNeutral {asked : Request} (h : asked.isNeutral = true) :
    asked.MovesForward := by
  unfold MovesForward
  split
  · cases h
  · trivial

/-- No answer to a neutral request wins a next run. -/
theorem Exchange.advance?_of_isNeutral {exchange : Exchange}
    (h : exchange.asked.isNeutral = true) : exchange.advance? scheduleId = none := by
  unfold advance?
  split
  · cases h
  · rfl

theorem Request.isAffordable_of_isNeutral {asked : Request} (h : asked.isNeutral = true)
    (spare : Nat) : asked.IsAffordable scheduleId spare :=
  ⟨movesForward_of_isNeutral h, fun hFires => absurd hFires (fires_of_isNeutral h)⟩

theorem Exchange.settle_of_isNeutral {exchange : Exchange} (h : exchange.asked.isNeutral = true)
    (spare : Nat) : exchange.settle scheduleId spare = spare := by
  unfold settle
  rw [advance?_of_isNeutral h]
  exact if_neg (Request.fires_of_isNeutral h)

/-- Engine work neither earns nor costs claims. -/
theorem Request.isNeutral_of_isEngineWork {asked : Request} (h : asked.isEngineWork = true) :
    asked.isNeutral = true := by
  unfold isEngineWork at h
  split at h <;> first | rfl | cases h

/-- What asks for a pipeline advances no next run. -/
theorem Exchange.advance?_of_fires {exchange : Exchange}
    (h : exchange.asked.fires scheduleId = true) : exchange.advance? scheduleId = none := by
  unfold advance?
  split
  · cases h
  · rfl

/-- What is paid for keeps the books in order. -/
theorem Exchange.firings_add_settle_le {past : List Exchange} (exchange : Exchange) {spare : Nat}
    (hAfford : exchange.asked.IsAffordable scheduleId spare)
    (hSpare : firings scheduleId past + spare ≤ (advances scheduleId past).length) :
    firings scheduleId (past ++ [exchange]) + exchange.settle scheduleId spare ≤
      (advances scheduleId (past ++ [exchange])).length := by
  have hFirings : firings scheduleId (past ++ [exchange]) = firings scheduleId past +
      if exchange.asked.fires scheduleId then 1 else 0 := by
    simp [firings, List.countP_append, List.countP_singleton]
  have hAdvances : advances scheduleId (past ++ [exchange]) =
      advances scheduleId past ++ (exchange.advance? scheduleId).toList := by
    cases hAdvance : exchange.advance? scheduleId <;> simp [advances, hAdvance]
  rw [hFirings, hAdvances, List.length_append]
  unfold settle
  by_cases hFires : exchange.asked.fires scheduleId = true
  · have hPositive := hAfford.2 hFires
    rw [advance?_of_fires hFires, if_pos hFires, Option.toList_none, List.length_nil]
    simp only [if_pos hFires]
    omega
  · rw [if_neg hFires]
    cases exchange.advance? scheduleId with
    | none =>
        simp only [if_neg hFires, Option.toList_none, List.length_nil]
        omega
    | some won =>
        simp only [Option.toList_some, List.length_singleton]
        omega

/-- Claims that are set aside stay aside. -/
theorem Exchange.settle_add_le (exchange : Exchange) {own aside spare : Nat}
    (hAfford : exchange.asked.IsAffordable scheduleId own) (hSpare : own + aside ≤ spare) :
    exchange.settle scheduleId own + aside ≤ exchange.settle scheduleId spare := by
  have hOwn := hAfford.2
  unfold settle
  split
  · omega
  · split
    · rename_i hFires
      have hPositive := hOwn hFires
      omega
    · exact hSpare

end Exchanges

namespace Program

variable {α β : Type}

/-- With `spare` claims the program pays for all it asks, however it is answered; what
is left and its value are as `post` says. -/
def Affords (post : Nat → α → Prop) : Program α → Nat → Prop
  | done value, spare => post spare value
  | crash _, _ => True
  | request asked resume, spare =>
      asked.IsAffordable scheduleId spare ∧
        ∀ answer, asked.MayAnswer answer →
          (resume answer).Affords post (Exchange.settle scheduleId ⟨asked, answer⟩ spare)

/-- The programs may share out `spare` claims among them. -/
def AffordTogether : List (Program α) → Nat → Prop
  | [], _ => True
  | program :: rest, spare =>
      ∃ own left, own + left ≤ spare ∧ program.Affords scheduleId (fun _ _ => True) own ∧
        AffordTogether rest left

variable {scheduleId} {post : Nat → α → Prop} {spare : Nat}

theorem Affords.imp {program : Program α} {weaker : Nat → α → Prop}
    (h : program.Affords scheduleId post spare)
    (hPost : ∀ kept value, post kept value → weaker kept value) :
    program.Affords scheduleId weaker spare := by
  induction program generalizing spare with
  | done value => exact hPost spare value h
  | crash fault => trivial
  | request asked resume ih =>
      exact ⟨h.1, fun answer hAnswer => ih answer (h.2 answer hAnswer)⟩

/-- One program after another. -/
theorem Affords.andThen {program : Program α} {next : α → Program β} {last : Nat → β → Prop}
    (h : program.Affords scheduleId post spare)
    (hNext : ∀ kept value, post kept value → (next value).Affords scheduleId last kept) :
    (program >>= next).Affords scheduleId last spare := by
  induction program generalizing spare with
  | done value => exact hNext spare value h
  | crash fault => trivial
  | request asked resume ih =>
      exact ⟨h.1, fun answer hAnswer => ih answer (h.2 answer hAnswer)⟩

/-- A program may be given more than it needs; what is set aside is kept. -/
theorem Affords.setAside {program : Program α} {own aside : Nat}
    (h : program.Affords scheduleId post own) (hSpare : own + aside ≤ spare) :
    program.Affords scheduleId
      (fun kept value => ∃ rest, post rest value ∧ rest + aside ≤ kept) spare := by
  induction program generalizing own spare with
  | done value => exact ⟨own, h, hSpare⟩
  | crash fault => trivial
  | request asked resume ih =>
      obtain ⟨hAfford, hResume⟩ := h
      refine ⟨⟨hAfford.1, fun hFires => ?_⟩, fun answer hAnswer => ?_⟩
      · have hPositive := hAfford.2 hFires
        omega
      · have hSettled := Exchange.settle_add_le ⟨asked, answer⟩ hAfford hSpare
        exact ih answer (hResume answer hAnswer) hSettled

/-- One neutral request. -/
theorem affords_ask {asked : Request} {post : Nat → asked.Answer → Prop}
    (hNeutral : asked.isNeutral = true)
    (hPost : ∀ answer, asked.MayAnswer answer → post spare answer) :
    (ask asked).Affords scheduleId post spare := by
  refine ⟨Request.isAffordable_of_isNeutral hNeutral spare, fun answer hAnswer => ?_⟩
  rw [Exchange.settle_of_isNeutral hNeutral]
  exact hPost answer hAnswer

/-- Neutral requests change nothing in the books. -/
theorem OnlyAsks.affords {program : Program α} (h : program.OnlyAsks Request.isNeutral) :
    program.Affords scheduleId (fun kept _ => kept = spare) spare := by
  induction program with
  | done value => rfl
  | crash fault => trivial
  | request asked resume ih =>
      obtain ⟨hNeutral, hResume⟩ := h
      refine ⟨Request.isAffordable_of_isNeutral hNeutral spare, fun answer _ => ?_⟩
      rw [Exchange.settle_of_isNeutral hNeutral]
      exact ih answer (hResume answer)

/-- A program that affords all it asks keeps the books in order. -/
theorem Affords.follows {program : Program α} {past : List Exchange} {store : Store}
    (h : program.Affords scheduleId post spare)
    (hSpare : firings scheduleId past + spare ≤ (advances scheduleId past).length) :
    program.Follows (ledger scheduleId) (fun later _ _ => Balanced scheduleId later)
      past store := by
  have hBalanced : Balanced scheduleId past := Nat.le_of_add_right_le hSpare
  induction program generalizing past spare store with
  | done value => exact fun _ _ => hBalanced
  | crash fault => exact hBalanced
  | request asked resume ih =>
      intro before _
      obtain ⟨hAfford, hResume⟩ := h
      refine ⟨⟨hBalanced, hAfford.1⟩, fun answer after hOccurs => ?_⟩
      have hNext := Exchange.firings_add_settle_le ⟨asked, answer⟩ hAfford hSpare
      exact ih answer (hResume answer ⟨before, after, hOccurs⟩) hNext
        (Nat.le_of_add_right_le hNext)

/-- The books of a program that follows the ledger are in order at every time. -/
theorem Fulfills.balanced {program : Program α} {past : List Exchange} {store : Store}
    (h : program.Follows (ledger scheduleId) (fun later _ _ => Balanced scheduleId later)
      past store) : Balanced scheduleId past := by
  cases program with
  | done value => exact h store trivial
  | crash fault => exact h
  | request asked resume => exact (h store trivial).1.1

/-- Any request of programs side by side can be paid for. -/
theorem AffordTogether.request {programs : List (Program α)} {next : Nat} {asked : Request}
    {resume : asked.Answer → Program α} (h : AffordTogether scheduleId programs spare)
    (hNext : programs[next]? = some (request asked resume)) :
    asked.IsAffordable scheduleId spare ∧ ∀ answer, asked.MayAnswer answer →
      AffordTogether scheduleId (programs.set next (resume answer))
        (Exchange.settle scheduleId ⟨asked, answer⟩ spare) := by
  induction programs generalizing next spare with
  | nil => cases hNext
  | cons program rest ih =>
      obtain ⟨own, left, hShare, hOwn, hRest⟩ := h
      cases next with
      | zero =>
          obtain rfl : program = request asked resume := Option.some.inj hNext
          obtain ⟨hAfford, hResume⟩ := hOwn
          refine ⟨⟨hAfford.1, fun hFires => ?_⟩, fun answer hAnswer => ?_⟩
          · have hPositive := hAfford.2 hFires
            omega
          · have hSettled := Exchange.settle_add_le ⟨asked, answer⟩ hAfford hShare
            exact ⟨_, left, hSettled, hResume answer hAnswer, hRest⟩
      | succ next =>
          obtain ⟨hAfford, hResume⟩ := ih hRest hNext
          -- A later program makes the request; the share of the first one is set aside.
          have hSwapped : left + own ≤ spare := by omega
          refine ⟨⟨hAfford.1, fun hFires => ?_⟩, fun answer hAnswer => ?_⟩
          · have hPositive := hAfford.2 hFires
            omega
          · have hLeft := Exchange.settle_add_le ⟨asked, answer⟩ hAfford hSwapped
            exact ⟨own, _, by omega, hOwn, hResume answer hAnswer⟩

theorem AffordTogether.mono {programs : List (Program α)} {more : Nat}
    (h : AffordTogether scheduleId programs spare) (hMore : spare ≤ more) :
    AffordTogether scheduleId programs more := by
  cases programs with
  | nil => trivial
  | cons program rest =>
      obtain ⟨own, left, hShare, hRest⟩ := h
      exact ⟨own, left, Nat.le_trans hShare hMore, hRest⟩

theorem AffordTogether.inTurn {programs : List (Program α)}
    (h : AffordTogether scheduleId programs spare) :
    (Program.inTurn programs).Affords scheduleId (fun _ _ => True) spare := by
  induction programs generalizing spare with
  | nil => trivial
  | cons program rest ih =>
      obtain ⟨own, left, hShare, hOwn, hRest⟩ := h
      refine (hOwn.setAside hShare).andThen fun kept value ⟨unspent, _, hKept⟩ => ?_
      -- The first program has left aside what the others need.
      have hLeft : AffordTogether scheduleId rest kept :=
        hRest.mono (Nat.le_of_add_left_le hKept)
      exact (ih hLeft).andThen fun _ _ _ => trivial

/-- Programs side by side afford what they afford together, in every order. -/
theorem AffordTogether.sideBySide {programs : List (Program α)}
    (h : AffordTogether scheduleId programs spare) (order : List Nat) :
    (Program.sideBySide order programs).Affords scheduleId (fun _ _ => True) spare := by
  induction order generalizing programs spare with
  | nil => exact h.inTurn
  | cons next order ih =>
      unfold Program.sideBySide
      split
      · rename_i asked resume hNext
        obtain ⟨hAfford, hResume⟩ := h.request hNext
        exact ⟨hAfford, fun answer hAnswer => ih (hResume answer hAnswer)⟩
      · trivial
      · exact ih h

end Program

end PipelineUpkeep

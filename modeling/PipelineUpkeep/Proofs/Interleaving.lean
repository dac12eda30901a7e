import Mathlib.Logic.Function.Basic
import PipelineUpkeep.Program.World
/-!
# Interleavings of programs

Several clients work on one store.  A history lists their requests in the order in
which they were answered, any client being next at any time; between two of them
foreign writers may change the store as far as they are allowed to.  A store call is
performed as a whole.  Every other request leaves the store alone and may be answered
in any way: clocks may jump, and an audit trail may fail.

Nothing is said about fairness.  A history may stop at any point, also inside a run.
-/

namespace PipelineUpkeep

open Time

/-- A request and how it was answered. -/
structure Exchange where
  asked : Request
  answer : asked.Answer

/-- The request may be answered this way, and leaves this store. -/
def Request.Occurs : (asked : Request) → Store → asked.Answer → Store → Prop
  | .store _ call, before, answer, after => call.perform before = (answer, after)
  | _, before, _, after => after = before

/-- One request of one client, with the store right before and right after it. -/
structure Moment (ι : Type) where
  client : ι
  exchange : Exchange
  before : Store
  after : Store

/-- A store, and how much of its program each client has still to do. -/
structure System {ι : Type} (α : ι → Type) where
  store : Store
  rest : (client : ι) → Program (α client)

variable {ι : Type} [DecidableEq ι] {α : ι → Type}

/-- What one client has asked and was answered. -/
def ownExchanges (client : ι) (history : List (Moment ι)) : List Exchange :=
  (history.filter fun moment => decide (moment.client = client)).map (·.exchange)

theorem ownExchanges_append (client : ι) (history later : List (Moment ι)) :
    ownExchanges client (history ++ later) =
      ownExchanges client history ++ ownExchanges client later := by
  simp [ownExchanges]

theorem ownExchanges_singleton_self (moment : Moment ι) :
    ownExchanges moment.client [moment] = [moment.exchange] := by
  simp [ownExchanges]

theorem ownExchanges_singleton_of_ne {client : ι} {moment : Moment ι}
    (h : moment.client ≠ client) : ownExchanges client [moment] = [] := by
  simp [ownExchanges, h]

/-- The client goes on with the rest of its program; the others wait. -/
def System.resume (system : System α) (client : ι) (rest : Program (α client)) (store : Store) :
    System α :=
  ⟨store, Function.update system.rest client rest⟩

@[simp]
theorem System.rest_resume_self (system : System α) (client : ι) (rest : Program (α client))
    (store : Store) : (system.resume client rest store).rest client = rest := by
  simp [resume]

theorem System.rest_resume_of_ne (system : System α) {client other : ι} (h : other ≠ client)
    (rest : Program (α client)) (store : Store) :
    (system.resume client rest store).rest other = system.rest other := by
  simp [resume, h]

/-- `history` leads from one system to another; `foreign` says how others may write. -/
inductive Interleaved (foreign : Store → Store → Prop) (start : System α) :
    List (Moment ι) → System α → Prop where
  | start : Interleaved foreign start [] start
  | move {history : List (Moment ι)} {system : System α} {client : ι} {asked : Request}
      {resume : asked.Answer → Program (α client)} {answer : asked.Answer} {after : Store}
      (hPast : Interleaved foreign start history system)
      (hRest : system.rest client = .request asked resume)
      (hOccurs : asked.Occurs system.store answer after) :
      Interleaved foreign start
        (history ++ [⟨client, ⟨asked, answer⟩, system.store, after⟩])
        (system.resume client (resume answer) after)
  | write {history : List (Moment ι)} {system : System α} {after : Store}
      (hPast : Interleaved foreign start history system)
      (hForeign : foreign system.store after) :
      Interleaved foreign start history ⟨after, system.rest⟩

namespace Interleaved

variable {foreign : Store → Store → Prop} {start final : System α} {history : List (Moment ι)}

/-- Every moment of a history is a request that occurred. -/
theorem occurs (h : Interleaved foreign start history final) :
    ∀ moment ∈ history,
      moment.exchange.asked.Occurs moment.before moment.exchange.answer moment.after := by
  induction h with
  | start => simp
  | move _ _ hOccurs ih =>
      intro moment hMoment
      rcases List.mem_append.mp hMoment with hOld | hNew
      · exact ih moment hOld
      · rw [List.mem_singleton] at hNew
        subst hNew
        exact hOccurs
  | write _ _ ih => exact ih

/-- A history may be cut anywhere. -/
theorem split {earlier later : List (Moment ι)}
    (h : Interleaved foreign start (earlier ++ later) final) :
    ∃ middle, Interleaved foreign start earlier middle ∧
      Interleaved foreign middle later final := by
  generalize hWhole : earlier ++ later = whole at h
  induction h generalizing later with
  | start =>
      obtain ⟨rfl, rfl⟩ := List.append_eq_nil_iff.mp hWhole
      exact ⟨start, .start, .start⟩
  | move hPast hRest hOccurs ih =>
      rcases List.eq_nil_or_concat later with rfl | ⟨front, last, rfl⟩
      · rw [List.append_nil] at hWhole
        subst hWhole
        exact ⟨_, .move hPast hRest hOccurs, .start⟩
      · rw [List.concat_eq_append, ← List.append_assoc] at hWhole
        obtain ⟨hFront, hLast⟩ := List.append_inj' hWhole rfl
        obtain ⟨middle, hBefore, hAfter⟩ := ih hFront
        rw [List.concat_eq_append, hLast]
        exact ⟨middle, hBefore, .move hAfter hRest hOccurs⟩
  | write _ hForeign ih =>
      obtain ⟨middle, hBefore, hAfter⟩ := ih hWhole
      exact ⟨middle, hBefore, .write hAfter hForeign⟩

section Order

variable {relates : Store → Store → Prop} (hRefl : ∀ store, relates store store)
  (hTrans : ∀ {a b c}, relates a b → relates b c → relates a c)
  (hForeign : ∀ {before after}, foreign before after → relates before after)
  (hMoments : ∀ moment ∈ history, relates moment.before moment.after)

include hRefl hTrans hForeign hMoments

/-- Whatever every write respects relates the ends of a history. -/
theorem relates_ends (h : Interleaved foreign start history final) :
    relates start.store final.store := by
  induction h with
  | start => exact hRefl _
  | move _ _ _ ih =>
      have hPast := ih fun moment hMoment =>
        hMoments moment (List.mem_append_left _ hMoment)
      have hLast := hMoments _ (List.mem_append_right _ (List.mem_singleton_self _))
      exact hTrans hPast hLast
  | write _ hWrite ih => exact hTrans (ih hMoments) (hForeign hWrite)

/-- It relates the start to each moment and each moment to the end. -/
theorem relates_moment (h : Interleaved foreign start history final) {moment : Moment ι}
    (hMoment : moment ∈ history) :
    relates start.store moment.before ∧ relates moment.after final.store := by
  induction h with
  | start => cases hMoment
  | move hPast hRest hOccurs ih =>
      have hOld := fun moment hMoment => hMoments moment (List.mem_append_left _ hMoment)
      have hLast := hMoments _ (List.mem_append_right _ (List.mem_singleton_self _))
      rcases List.mem_append.mp hMoment with hMem | hMem
      · obtain ⟨hBefore, hAfter⟩ := ih hOld hMem
        exact ⟨hBefore, hTrans hAfter hLast⟩
      · rw [List.mem_singleton.mp hMem]
        exact ⟨hPast.relates_ends hRefl hTrans hForeign hOld, hRefl _⟩
  | write _ hWrite ih =>
      obtain ⟨hBefore, hAfter⟩ := ih hMoments hMoment
      exact ⟨hBefore, hTrans hAfter (hForeign hWrite)⟩

/-- It relates each moment to every later one. -/
theorem pairwise_relates (h : Interleaved foreign start history final) :
    history.Pairwise fun earlier later => relates earlier.after later.before := by
  induction h with
  | start => exact List.Pairwise.nil
  | move hPast _ _ ih =>
      have hOld := fun moment hMoment => hMoments moment (List.mem_append_left _ hMoment)
      refine List.pairwise_append.mpr ⟨ih hOld, List.pairwise_singleton _ _, ?_⟩
      intro earlier hEarlier later hLater
      rw [List.mem_singleton.mp hLater]
      exact (hPast.relates_moment hRefl hTrans hForeign hOld hEarlier).2
  | write _ _ ih => exact ih hMoments

end Order

end Interleaved

/-! ## Histories that can be computed -/

/-- Answer a request: clocks show one time, and every audit record is kept. -/
def Request.serve (clock : Timestamp) : (asked : Request) → Store → asked.Answer × Store
  | .store _ call, before => call.perform before
  | .clock, before => (clock, before)
  | .log _, before => ((), before)
  | .audit _, before => (none, before)
  | .sleep _, before => ((), before)
  | .countFailure, before => ((), before)
  | .track _ _, before => ((), before)
  | .creation _, before => ((), before)

theorem Request.occurs_serve (clock : Timestamp) (asked : Request) (store : Store) :
    asked.Occurs store (asked.serve clock store).1 (asked.serve clock store).2 := by
  cases asked <;> rfl

/-- The clients take turns in the order of `turns`; a client that is done passes. -/
def System.play (clock : Timestamp) : List ι → System α → List (Moment ι) × System α
  | [], system => ([], system)
  | client :: turns, system =>
      match system.rest client with
      | .request asked resume =>
          let (answer, after) := asked.serve clock system.store
          let (history, final) :=
            play clock turns (system.resume client (resume answer) after)
          (⟨client, ⟨asked, answer⟩, system.store, after⟩ :: history, final)
      | _ => play clock turns system

/-- A history may be continued by another one. -/
theorem Interleaved.append {foreign : Store → Store → Prop} {start middle final : System α}
    {history later : List (Moment ι)} (h : Interleaved foreign start history middle)
    (hLater : Interleaved foreign middle later final) :
    Interleaved foreign start (history ++ later) final := by
  induction hLater with
  | start =>
      rw [List.append_nil]
      exact h
  | move _ hRest hOccurs ih =>
      rw [← List.append_assoc]
      exact .move ih hRest hOccurs
  | write _ hForeign ih => exact .write ih hForeign

theorem interleaved_play (foreign : Store → Store → Prop) (clock : Timestamp) (turns : List ι)
    (system : System α) :
    Interleaved foreign system (system.play clock turns).1 (system.play clock turns).2 := by
  induction turns generalizing system with
  | nil => exact .start
  | cons client turns ih =>
      unfold System.play
      cases hRest : system.rest client with
      | done value => exact ih system
      | crash fault => exact ih system
      | request asked resume =>
          have hMove : Interleaved foreign system _ _ :=
            .move .start hRest (asked.occurs_serve clock system.store)
          exact hMove.append (ih _)

end PipelineUpkeep

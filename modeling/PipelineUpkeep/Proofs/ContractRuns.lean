import PipelineUpkeep.Proofs.UnreliableStore
/-!
# Runs under contracts

A program is a tree without endless branches.  So one that fulfills a contract without faults
comes to its end in all surroundings that keep to the contract, and returns a value there: this
is `Program.Fulfills.runWith`.  Two kinds of surroundings are used most.  Some only answer, from
whatever store; the others are a store that nobody else writes, beside a clock that stands still.
-/

namespace PipelineUpkeep

open Time

/-! ## Answers without a store -/

/-- A contract that speaks of answers only, whatever store they come from. -/
def Contract.ofAnswers (answered : (asked : Request) → asked.Answer → Prop)
    (permits : List Exchange → Request → Prop) (mayFault : List Exchange → Prop) : Contract where
  others _ _ := True
  refl _ := trivial
  trans _ _ := trivial
  ends asked _ answer _ := answered asked answer
  permits past _ asked := permits past asked
  mayFault := mayFault

theorem Program.answers_ask {answered : (asked : Request) → asked.Answer → Prop}
    {permits : List Exchange → Request → Prop} {mayFault : List Exchange → Prop}
    {past : List Exchange} {store : Store} (asked : Request) (hPermits : permits past asked) :
    (ask asked).Fulfills (.ofAnswers answered permits mayFault)
      (fun later answer _ => later = past ++ [⟨asked, answer⟩] ∧ answered asked answer)
      past store :=
  fun _ _ => ⟨hPermits, fun _ _ hAnswered _ _ => ⟨rfl, hAnswered⟩⟩

/-- Some requests of a program have been answered, and this rest of it is left. -/
inductive Program.Reaches {α : Type} (program : Program α) : List Exchange → Program α → Prop where
  | start : Reaches program [] program
  | ask {made : List Exchange} {asked : Request} {resume : asked.Answer → Program α}
      (h : Reaches program made (.request asked resume)) (answer : asked.Answer) :
      Reaches program (made ++ [⟨asked, answer⟩]) (resume answer)

namespace Program.Reaches

variable {α : Type} {program rest : Program α} {made : List Exchange}

/-- The first of the requests, if there is one. -/
theorem cases_head (h : program.Reaches made rest) :
    (made = [] ∧ rest = program) ∨
      ∃ asked resume answer later, program = .request asked resume ∧
        made = ⟨asked, answer⟩ :: later ∧ (resume answer).Reaches later rest := by
  induction h with
  | start => exact Or.inl ⟨rfl, rfl⟩
  | ask h answer ih =>
      right
      rcases ih with ⟨rfl, rfl⟩ | ⟨first, resume, reply, later, rfl, rfl, hLater⟩
      · exact ⟨_, _, answer, [], rfl, rfl, .start⟩
      · exact ⟨first, resume, reply, _, rfl, rfl, hLater.ask answer⟩

/-- A program comes to its end: no program can be followed by what is left of it for ever. -/
theorem wellFounded :
    WellFounded fun rest program : Program α => ∃ made, made ≠ [] ∧ program.Reaches made rest := by
  refine ⟨fun program => ?_⟩
  induction program with
  | done value | crash fault =>
      refine ⟨_, fun rest ⟨made, hMade, hReaches⟩ => ?_⟩
      rcases hReaches.cases_head with ⟨hNone, -⟩ | ⟨_, _, _, _, hRequest, -⟩
      · exact absurd hNone hMade
      · cases hRequest
  | request asked resume ih =>
      refine ⟨_, fun rest ⟨made, hMade, hReaches⟩ => ?_⟩
      rcases hReaches.cases_head with ⟨hNone, -⟩ | ⟨_, _, answer, later, hRequest, -, hLater⟩
      · exact absurd hNone hMade
      · cases hRequest
        rcases List.eq_nil_or_concat later with rfl | ⟨front, last, rfl⟩
        · rcases hLater.cases_head with ⟨-, rfl⟩ | ⟨_, _, _, _, -, hSome, -⟩
          · exact ih answer
          · cases hSome
        · exact (ih answer).inv ⟨_, by simp, hLater⟩

end Program.Reaches

/-- What a client has exchanged leads from its program to what is left of it. -/
theorem Interleaved.reaches {ι : Type} [DecidableEq ι] {α : ι → Type}
    {foreign : Store → Store → Prop} {start final : System α} {history : List (Moment ι)}
    (h : Interleaved foreign start history final) (client : ι) :
    (start.rest client).Reaches (ownExchanges client history) (final.rest client) := by
  induction h with
  | start => exact .start
  | @move history system mover asked resume answer after _ hRest _ ih =>
      rw [ownExchanges_append]
      by_cases hMover : mover = client
      · subst hMover
        have hOwn : ownExchanges mover [⟨mover, ⟨asked, answer⟩, system.store, after⟩] =
            [⟨asked, answer⟩] := ownExchanges_singleton_self _
        rw [System.rest_resume_self, hOwn]
        rw [hRest] at ih
        exact ih.ask answer
      · rw [System.rest_resume_of_ne _ (Ne.symm hMover), ownExchanges_singleton_of_ne hMover,
          List.append_nil]
        exact ih
  | write _ _ ih => exact ih

/-- What is left of a program keeps to the contract of the program. -/
theorem Program.Fulfills.reaches {α : Type} {program rest : Program α}
    {answered : (asked : Request) → asked.Answer → Prop}
    {permits : List Exchange → Request → Prop} {mayFault : List Exchange → Prop}
    {post : List Exchange → α → Store → Prop} {made : List Exchange} {store : Store}
    (h : program.Fulfills (.ofAnswers answered permits mayFault) post [] store)
    (hReaches : program.Reaches made rest)
    (hAnswers : ∀ exchange ∈ made, answered exchange.asked exchange.answer) :
    rest.Fulfills (.ofAnswers answered permits mayFault) post made store := by
  induction hReaches with
  | start => exact h
  | ask _ answer ih =>
      have hPast := ih fun exchange hExchange =>
        hAnswers exchange (List.mem_append_left _ hExchange)
      have hLast := hAnswers _ (List.mem_append_right _ (List.mem_singleton_self _))
      exact (hPast store trivial).2 answer store hLast

/-- Whatever the program has requested was permitted. -/
theorem Program.Fulfills.permits_of_reaches {α : Type} {program rest : Program α}
    {answered : (asked : Request) → asked.Answer → Prop}
    {permits : List Exchange → Request → Prop} {mayFault : List Exchange → Prop}
    {post : List Exchange → α → Store → Prop} {made : List Exchange} {store : Store}
    (h : program.Fulfills (.ofAnswers answered permits mayFault) post [] store)
    (hReaches : program.Reaches made rest)
    (hAnswers : ∀ exchange ∈ made, answered exchange.asked exchange.answer) :
    ∀ exchange ∈ made, ∃ earlier, permits earlier exchange.asked := by
  induction hReaches with
  | start => exact fun _ hNone => absurd hNone List.not_mem_nil
  | @ask made asked resume hPast answer ih =>
      have hEarlier (exchange : Exchange) (hExchange : exchange ∈ made) :=
        hAnswers exchange (List.mem_append_left _ hExchange)
      intro exchange hExchange
      rcases List.mem_append.mp hExchange with hOld | hNew
      · exact ih hEarlier exchange hOld
      · rw [List.mem_singleton.mp hNew]
        exact ⟨made, (h.reaches hPast hEarlier store trivial).1⟩

/-! ## Runs -/

/-- Run a program in surroundings that answer each request at once. -/
def Program.runWith {α σ : Type} (answer : (asked : Request) → σ → asked.Answer × σ) :
    Program α → σ → Except Fault α × σ
  | done value, surroundings => (.ok value, surroundings)
  | crash fault, surroundings => (.error fault, surroundings)
  | request asked resume, surroundings =>
      (resume (answer asked surroundings).1).runWith answer (answer asked surroundings).2

theorem Program.run_eq_runWith {α : Type} (program : Program α) (world : World) :
    program.run world = program.runWith (fun asked world => world.answer asked) world := by
  induction program generalizing world with
  | done value => rfl
  | crash fault => rfl
  | request asked resume ih => exact ih _ _

/-- A program that fulfills a contract without faults returns in all surroundings that keep
to the contract.  `valid` says what is known of the surroundings after some exchanges. -/
theorem Program.Fulfills.runWith {α σ : Type} {contract : Contract}
    {post : List Exchange → α → Store → Prop} {program : Program α} {past : List Exchange}
    {answer : (asked : Request) → σ → asked.Answer × σ} (storeOf : σ → Store)
    (valid : List Exchange → σ → Prop)
    (hEnds : ∀ exchanges surroundings asked, valid exchanges surroundings →
      contract.ends asked (storeOf surroundings) (answer asked surroundings).1
        (storeOf (answer asked surroundings).2) ∧
      valid (exchanges ++ [⟨asked, (answer asked surroundings).1⟩]) (answer asked surroundings).2)
    (hFault : ∀ exchanges, ¬ contract.mayFault exchanges) {surroundings : σ}
    (hValid : valid past surroundings)
    (h : program.Fulfills contract post past (storeOf surroundings)) :
    ∃ value made, (program.runWith answer surroundings).1 = .ok value ∧
      valid made (program.runWith answer surroundings).2 ∧
      post made value (storeOf (program.runWith answer surroundings).2) := by
  induction program generalizing past surroundings with
  | done value => exact ⟨value, past, rfl, hValid, h _ (contract.refl _)⟩
  | crash fault => exact absurd h (hFault past)
  | request asked resume ih =>
      obtain ⟨hEnd, hNext⟩ := hEnds past surroundings asked hValid
      exact ih _ hNext ((h _ (contract.refl _)).2 _ _ hEnd)

/-- Circumstances that may do anything: by what has happened so far they say over which store
a request is made, how it is answered, and which store that leaves. -/
def Circumstances : Type :=
  List (Moment Unit) → (asked : Request) → Store × asked.Answer × Store

/-- What happens when a request is made. -/
def Circumstances.next (circumstances : Circumstances) (history : List (Moment Unit))
    (asked : Request) : Moment Unit where
  client := ()
  exchange := ⟨asked, (circumstances history asked).2.1⟩
  before := (circumstances history asked).1
  after := (circumstances history asked).2.2

/-- Every request ends as it may over an unreliable store. -/
def Circumstances.Honest (circumstances : Circumstances) : Prop :=
  ∀ history (asked : Request), asked.Ends (circumstances history asked).1
    (circumstances history asked).2.1 (circumstances history asked).2.2

section Circumstances

variable {α : Type} {program rest : Program α} {circumstances : Circumstances}
  {history : List (Moment Unit)}

/-- Run to the end, and list what happens. -/
def Program.runAmid (circumstances : Circumstances) (program : Program α)
    (history : List (Moment Unit)) : Except Fault α × List (Moment Unit) :=
  program.runWith (fun asked history =>
    ((circumstances history asked).2.1, history ++ [circumstances.next history asked])) history

/-- How a program has ended. -/
def Program.ofEnd : Except Fault α → Program α
  | .ok value => .done value
  | .error fault => .crash fault

/-- The run has come to the end of the program. -/
theorem Program.reaches_runAmid (hPast : program.Reaches (history.map (·.exchange)) rest) :
    program.Reaches ((rest.runAmid circumstances history).2.map (·.exchange))
      (.ofEnd (rest.runAmid circumstances history).1) := by
  induction rest generalizing history with
  | done value => exact hPast
  | crash fault => exact hPast
  | request asked resume ih =>
      refine ih (circumstances history asked).2.1 ?_
      rw [List.map_append]
      exact hPast.ask _

/-- What a contract says of the end of a program. -/
theorem Program.Fulfills.of_reaches_end {answered : (asked : Request) → asked.Answer → Prop}
    {permits : List Exchange → Request → Prop} {mayFault : List Exchange → Prop}
    {post : List Exchange → α → Store → Prop} {store : Store} {made : List Exchange}
    {result : Except Fault α}
    (h : program.Fulfills (.ofAnswers answered permits mayFault) post [] store)
    (hReaches : program.Reaches made (.ofEnd result))
    (hAnswers : ∀ exchange ∈ made, answered exchange.asked exchange.answer) :
    (∀ value, result = .ok value → ∀ held, post made value held) ∧
      ∀ fault, result = .error fault → mayFault made := by
  have hEnd := h.reaches hReaches hAnswers
  constructor
  · rintro value rfl held
    have hDone : ∀ later : Store, True → post made value later := hEnd
    exact hDone held trivial
  · rintro fault rfl
    exact hEnd

/-- What holds of whatever may happen holds of all that happens. -/
theorem Circumstances.forall_runAmid {holds : Moment Unit → Prop}
    (hNext : ∀ history asked, holds (circumstances.next history asked))
    (hPast : ∀ moment ∈ history, holds moment) :
    ∀ moment ∈ (program.runAmid circumstances history).2, holds moment := by
  induction program generalizing history with
  | done value => exact hPast
  | crash fault => exact hPast
  | request asked resume ih =>
      refine ih (circumstances history asked).2.1 fun moment hMoment => ?_
      rcases List.mem_append.mp hMoment with hOld | hNew
      · exact hPast moment hOld
      · rw [List.mem_singleton.mp hNew]
        exact hNext history asked

theorem Circumstances.Honest.ends_runAmid (hHonest : circumstances.Honest) :
    ∀ moment ∈ (program.runAmid circumstances []).2,
      moment.exchange.asked.Ends moment.before moment.exchange.answer moment.after :=
  circumstances.forall_runAmid hHonest fun _ hNone => absurd hNone List.not_mem_nil

end Circumstances

/-! ## Alone with the store -/

/-- Clocks show one of these times. -/
def Request.Shows (times : Timestamp → Prop) : (asked : Request) → asked.Answer → Prop
  | .clock, now => times now
  | _, _ => True

theorem Request.shows_any (asked : Request) (answer : asked.Answer) :
    asked.Shows (fun _ => True) answer := by
  cases asked <;> trivial

/-- Clocks show the times that they have shown. -/
theorem Exchange.shows_of_mem {made : List Exchange} {exchange : Exchange}
    (h : exchange ∈ made) :
    exchange.asked.Shows (fun now => ⟨.clock, now⟩ ∈ made) exchange.answer := by
  obtain ⟨asked, answer⟩ := exchange
  cases asked with
  | clock => exact h
  | _ => trivial

/-- Nobody else writes, every call is performed, the clock stands still, and there are no
faults. -/
def Contract.alone (clock : Timestamp) : Contract where
  others before after := after = before
  refl _ := rfl
  trans := fun h hLater => hLater.trans h
  ends asked before answer after := asked.Occurs before answer after ∧
    asked.Shows (· = clock) answer
  permits _ _ _ := True
  mayFault _ := False

theorem Program.pure_alone {α : Type} {clock : Timestamp} {post : List Exchange → α → Store → Prop}
    {past : List Exchange} {store : Store} {value : α} (h : post past value store) :
    (pure value : Program α).Fulfills (.alone clock) post past store := by
  rintro _ rfl
  exact h

theorem Program.ask_alone {clock : Timestamp} {past : List Exchange} {store : Store}
    (asked : Request) :
    (ask asked).Fulfills (.alone clock)
      (fun _ answer held => asked.Occurs store answer held ∧ asked.Shows (· = clock) answer)
      past store := by
  rintro before rfl
  exact ⟨trivial, fun answer after hEnds held hHeld => by rw [hHeld]; exact hEnds⟩

theorem Program.callStore_alone {clock : Timestamp} {past : List Exchange} {store : Store}
    (access : Access) (call : StoreCall) :
    (callStore access call).Fulfills (.alone clock)
      (fun _ result held => call.perform store = (result, held)) past store :=
  (ask_alone (.store access call)).imp fun _ _ _ h => h.1

theorem Program.writeLog_alone {clock : Timestamp} {past : List Exchange} {store : Store}
    (level : LogLevel) (message : String) :
    (writeLog level message).Fulfills (.alone clock) (fun _ _ held => held = store) past store :=
  (ask_alone (.log ⟨level, false, message⟩)).imp fun _ _ _ h => h.1

theorem Program.readClock_alone {clock : Timestamp} {past : List Exchange} {store : Store} :
    readClock.Fulfills (.alone clock) (fun _ now held => now = clock ∧ held = store) past store :=
  (ask_alone .clock).imp fun _ _ _ h => ⟨h.2, h.1⟩

theorem World.shows_answer (world : World) (asked : Request) :
    asked.Shows (· = world.clock) (world.answer asked).1 := by
  cases asked <;> first | rfl | trivial

/-- No answer moves the clock. -/
theorem World.clock_answer (world : World) (asked : Request) :
    (world.answer asked).2.clock = world.clock := by
  match asked with
  | .store access call =>
      simp only [answer, callStore]
      unfold logCall
      split <;> rfl
  | .audit entry =>
      unfold answer
      cases hTrail : world.trail <;> rfl
  | .clock | .log _ | .sleep _ | .countFailure | .track .. | .creation _ => rfl

/-- Nobody disturbs the world, and its clock shows this time. -/
def World.IsStill (world : World) (clock : Timestamp) : Prop :=
  world.clock = clock ∧ world.disturbance = .none

/-- A still world answers as one that is left alone, and remains still. -/
theorem World.IsStill.answer {world : World} {clock : Timestamp} (h : world.IsStill clock)
    (asked : Request) :
    (Contract.alone clock).ends asked world.store (world.answer asked).1
        (world.answer asked).2.store ∧
      (world.answer asked).2.IsStill clock := by
  obtain ⟨hClock, hQuiet⟩ := h
  obtain ⟨hOccurs, hStill⟩ := World.occurs_answer hQuiet asked
  have hShows := world.shows_answer asked
  rw [hClock] at hShows
  exact ⟨⟨hOccurs, hShows⟩, (world.clock_answer asked).trans hClock, hStill⟩

/-- In a world that nobody disturbs a program is alone with the store. -/
theorem Program.Fulfills.run_alone {α : Type} {post : List Exchange → α → Store → Prop}
    {program : Program α} {past : List Exchange} {world : World}
    (h : program.Fulfills (.alone world.clock) post past world.store)
    (hQuiet : world.disturbance = .none) :
    ∃ value made, (program.run world).1 = .ok value ∧
      (program.run world).2.clock = world.clock ∧ (program.run world).2.disturbance = .none ∧
      post made value (program.run world).2.store := by
  rw [run_eq_runWith]
  obtain ⟨value, made, hValue, ⟨hClock, hStill⟩, hPost⟩ := Fulfills.runWith World.store
    (fun _ later => later.IsStill world.clock) (fun _ _ asked hLater => hLater.answer asked)
    (fun _ hFault => hFault) ⟨rfl, hQuiet⟩ h
  exact ⟨value, made, hValue, hClock, hStill, hPost⟩

end PipelineUpkeep

import PipelineUpkeep.Proofs.EngineRequests
import PipelineUpkeep.Proofs.Interleaving
/-!
# Contracts of programs

What one client does among others is judged from its program alone.  A contract says how
the store may change between two requests of the client, how these requests may end, what
the client may request by what it was answered so far and by the store of the moment, and
when it may end in a fault.  `Program.Fulfills` checks a program against a contract request
by request; `Interleaved.fulfills` carries the check to every history in which the others
change the store only as the contract says.

Contracts differ in what they assume.  Under one, every store call is performed; others let
calls fail, let a store refuse some of them, or let the clock stand still.
-/

namespace PipelineUpkeep

structure Contract where
  /-- How the store may change between two requests. -/
  others : Store → Store → Prop
  refl : ∀ store, others store store
  trans : ∀ {a b c}, others a b → others b c → others a c
  /-- How a request may end. -/
  ends : (asked : Request) → Store → asked.Answer → Store → Prop
  /-- What may be requested after some exchanges, of the store of the moment. -/
  permits : List Exchange → Store → Request → Prop
  /-- After which exchanges the program may end in a fault. -/
  mayFault : List Exchange → Prop

namespace Program

variable {α β : Type} {contract : Contract} {post : List Exchange → α → Store → Prop}
  {past : List Exchange} {store : Store}

/-- From these exchanges and this store on, the program requests only what the contract
permits, however its requests end and whatever the others do, and `post` holds of its value
once it is done. -/
def Fulfills (contract : Contract) (post : List Exchange → α → Store → Prop) :
    Program α → List Exchange → Store → Prop
  | done value, past, store => ∀ later, contract.others store later → post past value later
  | crash _, past, _ => contract.mayFault past
  | request asked resume, past, store =>
      ∀ before, contract.others store before →
        contract.permits past before asked ∧
          ∀ answer after, contract.ends asked before answer after →
            (resume answer).Fulfills contract post (past ++ [⟨asked, answer⟩]) after

/-- The others may change the store before the program goes on. -/
theorem Fulfills.after {program : Program α} {later : Store}
    (h : program.Fulfills contract post past store) (hLater : contract.others store later) :
    program.Fulfills contract post past later := by
  cases program with
  | done value => exact fun last hLast => h last (contract.trans hLater hLast)
  | crash fault => exact h
  | request asked resume =>
      exact fun before hBefore => h before (contract.trans hLater hBefore)

theorem fulfills_pure {value : α}
    (h : ∀ later, contract.others store later → post past value later) :
    (pure value : Program α).Fulfills contract post past store := h

theorem fulfills_ask (asked : Request)
    (hPermits : ∀ before, contract.others store before → contract.permits past before asked) :
    (ask asked).Fulfills contract
      (fun later answer held => later = past ++ [⟨asked, answer⟩] ∧
        ∃ before after, contract.others store before ∧ contract.ends asked before answer after ∧
          contract.others after held) past store :=
  fun before hBefore => ⟨hPermits before hBefore, fun _ after hEnds _ hHeld =>
    ⟨rfl, before, after, hBefore, hEnds, hHeld⟩⟩

theorem Fulfills.imp {program : Program α} {weaker : List Exchange → α → Store → Prop}
    (h : program.Fulfills contract post past store)
    (hPost : ∀ exchanges value held, post exchanges value held → weaker exchanges value held) :
    program.Fulfills contract weaker past store := by
  induction program generalizing past store with
  | done value => exact fun later hLater => hPost past value later (h later hLater)
  | crash fault => exact h
  | request asked resume ih =>
      intro before hBefore
      obtain ⟨hPermits, hResume⟩ := h before hBefore
      exact ⟨hPermits, fun answer after hEnds => ih answer (hResume answer after hEnds)⟩

/-- One program after another, by what the first one achieves. -/
theorem Fulfills.andThen {program : Program α} {next : α → Program β}
    {last : List Exchange → β → Store → Prop} (h : program.Fulfills contract post past store)
    (hNext : ∀ exchanges value held, post exchanges value held →
      (next value).Fulfills contract last exchanges held) :
    (program >>= next).Fulfills contract last past store := by
  induction program generalizing past store with
  | done value => exact hNext past value store (h store (contract.refl store))
  | crash fault => exact h
  | request asked resume ih =>
      intro before hBefore
      obtain ⟨hPermits, hResume⟩ := h before hBefore
      exact ⟨hPermits, fun answer after hEnds => ih answer (hResume answer after hEnds)⟩

/-- What a program achieves it achieves for good, as far as the others are concerned. -/
theorem Fulfills.lasting {program : Program α} (h : program.Fulfills contract post past store) :
    program.Fulfills contract
      (fun exchanges value held => ∀ later, contract.others held later → post exchanges value later)
      past store := by
  induction program generalizing past store with
  | done value => exact fun later hLater last hLast => h last (contract.trans hLater hLast)
  | crash fault => exact h
  | request asked resume ih =>
      intro before hBefore
      obtain ⟨hPermits, hResume⟩ := h before hBefore
      exact ⟨hPermits, fun answer after hEnds => ih answer (hResume answer after hEnds)⟩

/-- A program keeps to a stricter contract if something that it comes to know, by its exchanges
and of the store, makes up for the difference. -/
theorem Fulfills.knowing {program : Program α} (h : program.Fulfills contract post past store)
    (other : Contract) (knows : List Exchange → Store → Prop) (hKnows : knows past store)
    (hOthers : ∀ before after, other.others before after → contract.others before after)
    (hLater : ∀ exchanges before after, other.others before after → knows exchanges before →
      knows exchanges after)
    (hPermits : ∀ exchanges before asked, knows exchanges before →
      contract.permits exchanges before asked → other.permits exchanges before asked)
    (hEnds : ∀ exchanges before asked answer after, knows exchanges before →
      contract.permits exchanges before asked → other.ends asked before answer after →
        contract.ends asked before answer after ∧ knows (exchanges ++ [⟨asked, answer⟩]) after)
    (hFault : ∀ exchanges held, knows exchanges held → contract.mayFault exchanges →
      other.mayFault exchanges) :
    program.Fulfills other
      (fun exchanges value held => knows exchanges held ∧ post exchanges value held)
      past store := by
  induction program generalizing past store with
  | done value =>
      exact fun later hLast => ⟨hLater past store later hLast hKnows, h later (hOthers _ _ hLast)⟩
  | crash fault => exact hFault past store hKnows h
  | request asked resume ih =>
      intro before hBefore
      have hNow := hLater past store before hBefore hKnows
      obtain ⟨hPermitted, hResume⟩ := h before (hOthers store before hBefore)
      refine ⟨hPermits past before asked hNow hPermitted, fun answer after hEnd => ?_⟩
      obtain ⟨hOwn, hStill⟩ := hEnds past before asked answer after hNow hPermitted hEnd
      exact ih answer (hResume answer after hOwn) hStill

/-- A program keeps to another contract that assumes as much and permits as much. -/
theorem Fulfills.mono {program : Program α} (h : program.Fulfills contract post past store)
    (other : Contract)
    (hOthers : ∀ before after, other.others before after → contract.others before after)
    (hEnds : ∀ asked before answer after, other.ends asked before answer after →
      contract.ends asked before answer after)
    (hPermits : ∀ exchanges before asked, contract.permits exchanges before asked →
      other.permits exchanges before asked)
    (hFault : ∀ exchanges, contract.mayFault exchanges → other.mayFault exchanges) :
    program.Fulfills other post past store := by
  refine (h.knowing other (fun _ _ => True) trivial hOthers (fun _ _ _ _ => id)
    (fun exchanges before asked _ => hPermits exchanges before asked)
    (fun _ before asked answer after _ _ hEnd => ⟨hEnds asked before answer after hEnd, trivial⟩)
    (fun exchanges _ _ => hFault exchanges)).imp ?_
  exact fun _ _ _ hBoth => hBoth.2

/-- What every change respects relates the store at the start to the store at the end. -/
theorem Fulfills.carry {program : Program α} (h : program.Fulfills contract post past store)
    (relates : Store → Store → Prop) (hRefl : ∀ held, relates held held)
    (hTrans : ∀ {a b c}, relates a b → relates b c → relates a c)
    (hOthers : ∀ before after, contract.others before after → relates before after)
    (hMoves : ∀ exchanges before asked answer after, contract.permits exchanges before asked →
      contract.ends asked before answer after → relates before after) :
    program.Fulfills contract
      (fun exchanges value held => post exchanges value held ∧ relates store held) past store := by
  refine (h.knowing contract (fun _ => relates store) (hRefl store) (fun _ _ => id)
    (fun _ before after hChange hSince => hTrans hSince (hOthers before after hChange))
    (fun _ _ _ _ => id) (fun made before asked answer after hSince hPermits hEnds =>
      ⟨hEnds, hTrans hSince (hMoves made before asked answer after hPermits hEnds)⟩)
    (fun _ _ _ => id)).imp ?_
  exact fun _ _ _ hBoth => hBoth.symm

/-- The exchanges of a program follow those before it. -/
theorem Fulfills.extends {program : Program α} (h : program.Fulfills contract post past store) :
    program.Fulfills contract
      (fun exchanges value held => past <+: exchanges ∧ post exchanges value held) past store :=
  h.knowing contract (fun made _ => past <+: made) List.prefix_rfl (fun _ _ => id)
    (fun _ _ _ _ => id) (fun _ _ _ _ => id)
    (fun _ _ _ _ _ hMade _ hEnds => ⟨hEnds, hMade.trans (List.prefix_append _ _)⟩)
    (fun _ _ _ => id)

/-- If only certain requests are permitted, a program makes no others. -/
theorem Fulfills.onlyMakes {program : Program α} (h : program.Fulfills contract post past store)
    (allowed : Request → Prop)
    (hAllowed : ∀ exchanges before asked, contract.permits exchanges before asked → allowed asked)
    (hPast : ∀ exchange ∈ past, allowed exchange.asked) :
    program.Fulfills contract
      (fun exchanges value held => (∀ exchange ∈ exchanges, allowed exchange.asked) ∧
        post exchanges value held) past store := by
  refine h.knowing contract (fun made _ => ∀ exchange ∈ made, allowed exchange.asked) hPast
    (fun _ _ => id) (fun _ _ _ _ => id) (fun _ _ _ _ => id)
    (fun made before asked answer after hMade hPermits hEnds => ⟨hEnds, fun exchange hMem => ?_⟩)
    (fun _ _ _ => id)
  rcases List.mem_append.mp hMem with hOld | hNew
  · exact hMade exchange hOld
  · rw [List.mem_singleton.mp hNew]
    exact hAllowed made before asked hPermits

/-- A program keeps to another contract that assumes as much and permits as much.  What came
before the program may be left out of account. -/
theorem Fulfills.since {program : Program α} {made : List Exchange}
    (h : program.Fulfills contract post made store) (other : Contract) (earlier : List Exchange)
    (hOthers : ∀ before after, other.others before after → contract.others before after)
    (hEnds : ∀ asked before answer after, other.ends asked before answer after →
      contract.ends asked before answer after)
    (hPermits : ∀ exchanges before asked, contract.permits exchanges before asked →
      other.permits (earlier ++ exchanges) before asked)
    (hFault : ∀ exchanges, contract.mayFault exchanges → other.mayFault (earlier ++ exchanges)) :
    program.Fulfills other
      (fun exchanges value held => ∃ own, exchanges = earlier ++ own ∧ post own value held)
      (earlier ++ made) store := by
  induction program generalizing made store with
  | done value => exact fun later hLater => ⟨made, rfl, h later (hOthers store later hLater)⟩
  | crash fault => exact hFault made h
  | request asked resume ih =>
      intro before hBefore
      obtain ⟨hPermitted, hResume⟩ := h before (hOthers store before hBefore)
      refine ⟨hPermits made before asked hPermitted, fun answer after hEnd => ?_⟩
      rw [List.append_assoc]
      exact ih answer (hResume answer after (hEnds asked before answer after hEnd))

/-- What a program never asks it need not be permitted. -/
theorem Fulfills.asking {program : Program α} {allowed : Request → Bool}
    (h : program.Fulfills contract post past store) (hAsks : program.OnlyAsks allowed) :
    program.Fulfills
      { contract with
        permits := fun made before asked =>
          contract.permits made before asked ∧ allowed asked = true }
      post past store := by
  induction program generalizing past store with
  | done value => exact h
  | crash fault => exact h
  | request asked resume ih =>
      intro before hBefore
      obtain ⟨hPermits, hResume⟩ := h before hBefore
      exact ⟨⟨hPermits, hAsks.1⟩, fun answer after hEnds =>
        ih answer (hResume answer after hEnds) (hAsks.2 answer)⟩

/-- A program that keeps to two contracts keeps to any that both of them together cover. -/
theorem Fulfills.both {program : Program α} {first second : Contract}
    {secondPost : List Exchange → α → Store → Prop}
    (hFirst : program.Fulfills first post past store)
    (hSecond : program.Fulfills second secondPost past store) (covered : Contract)
    (hOthers : ∀ before after, covered.others before after →
      first.others before after ∧ second.others before after)
    (hPermits : ∀ exchanges before asked, first.permits exchanges before asked →
      second.permits exchanges before asked → covered.permits exchanges before asked)
    (hEnds : ∀ exchanges before asked answer after, first.permits exchanges before asked →
      second.permits exchanges before asked → covered.ends asked before answer after →
        first.ends asked before answer after ∧ second.ends asked before answer after)
    (hFault : ∀ exchanges, first.mayFault exchanges → second.mayFault exchanges →
      covered.mayFault exchanges) :
    program.Fulfills covered
      (fun exchanges value held => post exchanges value held ∧ secondPost exchanges value held)
      past store := by
  induction program generalizing past store with
  | done value =>
      intro later hLater
      obtain ⟨hOne, hTwo⟩ := hOthers store later hLater
      exact ⟨hFirst later hOne, hSecond later hTwo⟩
  | crash fault => exact hFault past hFirst hSecond
  | request asked resume ih =>
      intro before hBefore
      obtain ⟨hOne, hTwo⟩ := hOthers store before hBefore
      obtain ⟨hFirstPermits, hFirstResume⟩ := hFirst before hOne
      obtain ⟨hSecondPermits, hSecondResume⟩ := hSecond before hTwo
      refine ⟨hPermits past before asked hFirstPermits hSecondPermits, fun answer after hEnd => ?_⟩
      obtain ⟨hFirstEnd, hSecondEnd⟩ :=
        hEnds past before asked answer after hFirstPermits hSecondPermits hEnd
      exact ih answer (hFirstResume answer after hFirstEnd) (hSecondResume answer after hSecondEnd)

end Program

section Histories

variable {ι : Type} [DecidableEq ι] {α : ι → Type} {foreign : Store → Store → Prop}
  {start final : System α} {history : List (Moment ι)} {client : ι} {contract : Contract}
  {post : List Exchange → α client → Store → Prop}

/-- A client keeps to its contract with what is left of its program, if its requests end as the
contract says and the others do as it assumes. -/
theorem Interleaved.fulfills (h : Interleaved foreign start history final)
    (hStart : (start.rest client).Fulfills contract post [] start.store)
    (hForeign : ∀ before after, foreign before after → contract.others before after)
    (hOthers : ∀ moment ∈ history, moment.client ≠ client →
      contract.others moment.before moment.after)
    (hOwn : ∀ moment ∈ history, moment.client = client →
      contract.ends moment.exchange.asked moment.before moment.exchange.answer moment.after) :
    (final.rest client).Fulfills contract post (ownExchanges client history) final.store := by
  induction h with
  | start => exact hStart
  | @move history system mover asked resume answer after _ hRest _ ih =>
      have hPast := ih (fun moment hMoment => hOthers moment (List.mem_append_left _ hMoment))
        fun moment hMoment => hOwn moment (List.mem_append_left _ hMoment)
      have hLast := List.mem_append_right history (List.mem_singleton_self
        (⟨mover, ⟨asked, answer⟩, system.store, after⟩ : Moment ι))
      rw [ownExchanges_append]
      -- A move of the client takes its program one request further; a move of another one
      -- only changes the store.
      by_cases hMover : mover = client
      · subst hMover
        have hExchange : ownExchanges mover [⟨mover, ⟨asked, answer⟩, system.store, after⟩] =
            [⟨asked, answer⟩] := ownExchanges_singleton_self _
        rw [hRest] at hPast
        rw [System.rest_resume_self, hExchange]
        exact (hPast _ (contract.refl _)).2 answer after (hOwn _ hLast rfl)
      · rw [System.rest_resume_of_ne _ (Ne.symm hMover), ownExchanges_singleton_of_ne hMover,
          List.append_nil]
        exact hPast.after (hOthers _ hLast hMover)
  | write _ hWrite ih => exact (ih hOthers hOwn).after (hForeign _ _ hWrite)

/-- Every request of a client that keeps to its contract was permitted. -/
theorem Interleaved.permits {earlier later : List (Moment ι)} {moment : Moment ι}
    (h : Interleaved foreign start (earlier ++ moment :: later) final)
    (hClient : moment.client = client)
    (hStart : (start.rest client).Fulfills contract post [] start.store)
    (hForeign : ∀ before after, foreign before after → contract.others before after)
    (hOthers : ∀ other ∈ earlier, other.client ≠ client →
      contract.others other.before other.after)
    (hOwn : ∀ other ∈ earlier, other.client = client →
      contract.ends other.exchange.asked other.before other.exchange.answer other.after) :
    contract.permits (ownExchanges client earlier) moment.before moment.exchange.asked := by
  rw [List.append_cons] at h
  obtain ⟨reached, hReached, -⟩ := h.split
  generalize hWhole : earlier ++ [moment] = whole at hReached
  -- Foreign writes after the moment leave it where it is.
  induction hReached with
  | start => simp at hWhole
  | @move history system mover asked resume answer after hPast hRest hOccurs ih =>
      obtain ⟨rfl, hMoment⟩ := List.append_inj' hWhole rfl
      obtain rfl := List.singleton_inj.mp hMoment
      have hLeft := hPast.fulfills hStart hForeign hOthers hOwn
      change mover = client at hClient
      subst hClient
      rw [hRest] at hLeft
      exact (hLeft _ (contract.refl _)).1
  | write _ _ ih => exact ih hWhole

end Histories

end PipelineUpkeep

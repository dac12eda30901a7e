import Mathlib.Data.List.Nodup
import PipelineUpkeep.Remote.Heads
/-!
# Searches that take turns

Searches for several heads share one network, and each of them asks when it is its turn.
Whatever the order of the turns, the exchanges with the network divide into those of the
single searches: a search asks in each of its turns until a reply settles it, and nothing
that happens between its turns changes what it has heard.  Rounds are one such order.
-/

namespace PipelineUpkeep

/-! ## Exchanges -/

/-- A request of one of several searches, with the reply to it. -/
structure HeadExchange where
  /-- The position of the search. -/
  search : Nat
  request : WebRequest
  reply : Reply

namespace HeadExchange

/-- The exchanges of one search, in order. -/
def own (i : Nat) (log : List HeadExchange) : List HeadExchange := log.filter (·.search == i)

@[simp]
theorem own_nil (i : Nat) : own i [] = [] := rfl

theorem own_cons_self (exchange : HeadExchange) (log : List HeadExchange) :
    own exchange.search (exchange :: log) = exchange :: own exchange.search log := by
  simp [own]

theorem own_cons_of_ne {exchange : HeadExchange} {i : Nat} (h : exchange.search ≠ i)
    (log : List HeadExchange) : own i (exchange :: log) = own i log := by
  simp [own, h]

theorem mem_own {i : Nat} {log : List HeadExchange} {exchange : HeadExchange} :
    exchange ∈ own i log ↔ exchange ∈ log ∧ exchange.search = i := by
  simp [own]

end HeadExchange

/-- The replies are those of the network if some requests were sent before. -/
def Network.Answers (network : Network) : List WebRequest → List HeadExchange → Prop
  | _, [] => True
  | sent, exchange :: rest =>
      exchange.reply = network exchange.request (sent.count exchange.request) ∧
        Answers network (sent ++ [exchange.request]) rest

/-- The replies to a request that only one search makes are those that the network
gives to it one after the other. -/
theorem Network.Answers.reply_own {network : Network} {log : List HeadExchange} {i : Nat}
    {request : WebRequest}
    (hOwn : ∀ exchange ∈ log, exchange.search = i ↔ exchange.request = request)
    {sent : List WebRequest} (h : network.Answers sent log) {n : Nat} {exchange : HeadExchange}
    (hExchange : (HeadExchange.own i log)[n]? = some exchange) :
    exchange.request = request ∧ exchange.reply = network request (sent.count request + n) := by
  induction log generalizing sent n with
  | nil => simp at hExchange
  | cons first rest ih =>
      obtain ⟨hFirst, hRest⟩ := h
      have hOwnFirst := hOwn first List.mem_cons_self
      have ih {n : Nat} := @ih (fun other hOther => hOwn other (List.mem_cons_of_mem first hOther))
        (sent ++ [first.request]) hRest n
      -- Only an exchange of its own moves a search on to the next reply to its request.
      by_cases hSearch : first.search = i
      · subst hSearch
        obtain rfl := hOwnFirst.mp rfl
        rw [HeadExchange.own_cons_self] at hExchange
        cases n with
        | zero =>
            obtain rfl : first = exchange := by simpa using hExchange
            exact ⟨rfl, hFirst⟩
        | succ n =>
            have hLater := ih (by simpa using hExchange)
            simpa [Nat.add_assoc, Nat.add_comm 1] using hLater
      · have hOther : request ≠ first.request := fun hEq => hSearch (hOwnFirst.mpr hEq.symm)
        rw [HeadExchange.own_cons_of_ne hSearch] at hExchange
        simpa [List.count_singleton, hOther, hOther.symm] using ih hExchange

namespace HeadSearch

/-! ## One search -/

/-- The request that a search is still to make. -/
def pending? : HeadSearch → Option WebRequest
  | asking request _ => some request
  | finished _ => none

/-- What a search becomes when there is a reply to its request. -/
def hear (projectId : Nat) (request : WebRequest) (reply : Reply) : HeadSearch :=
  match reply.verdict projectId with
  | .settled result => finished result
  | .again error => asking request error

theorem pending?_hear {projectId : Nat} {request other : WebRequest} {reply : Reply}
    (h : (hear projectId request reply).pending? = some other) : other = request := by
  unfold hear at h
  split at h
  · cases h
  · exact (Option.some.inj h).symm

theorem turn_asking (network : Network) (projectId : Nat) (request : WebRequest)
    (failure : UpkeepError) (sent : List WebRequest) :
    (asking request failure).turn network projectId sent =
      (hear projectId request (network request (sent.count request)), sent ++ [request]) := by
  rcases h : (network request (sent.count request)).verdict projectId with result | error <;>
    simp [turn, hear, Network.send, h]

/-- With so many turns a search hears the replies, in order, and is the `last` search in the
end: it asks in each turn until it has finished. -/
inductive Hears (projectId : Nat) : Nat → HeadSearch → List Reply → HeadSearch → Prop
  | silent (turns : Nat) (result : HeadResult) :
      Hears projectId turns (finished result) [] (finished result)
  | spent (search : HeadSearch) : Hears projectId 0 search [] search
  | asked {turns : Nat} {request : WebRequest} {failure : UpkeepError} {reply : Reply}
      {replies : List Reply} {last : HeadSearch} :
      Hears projectId turns (hear projectId request reply) replies last →
        Hears projectId (turns + 1) (asking request failure) (reply :: replies) last

theorem Hears.of_finished {projectId turns : Nat} {result : HeadResult} {replies : List Reply}
    {last : HeadSearch} (h : Hears projectId turns (finished result) replies last) :
    replies = [] ∧ last = finished result := by
  cases h <;> exact ⟨rfl, rfl⟩

/-- A search that hears the same as long as it asks ends the same. -/
theorem Hears.unique {projectId turns : Nat} {search last last' : HeadSearch}
    {replies replies' : List Reply} (h : Hears projectId turns search replies last)
    (h' : Hears projectId turns search replies' last')
    (hSame : ∀ n : Nat, ∀ reply ∈ replies[n]?, ∀ reply' ∈ replies'[n]?, reply = reply') :
    replies = replies' ∧ last = last' := by
  induction h generalizing replies' with
  | silent turns result => cases h' <;> exact ⟨rfl, rfl⟩
  | spent search => cases h' <;> exact ⟨rfl, rfl⟩
  | @asked turns request failure reply replies last _ ih =>
      cases h' with
      | @asked _ _ _ reply' replies' _ hLater' =>
          obtain rfl : reply = reply' := hSame 0 reply rfl reply' rfl
          obtain ⟨rfl, rfl⟩ := ih hLater' fun n => hSame (n + 1)
          exact ⟨rfl, rfl⟩

/-! ## Turns in any order -/

/-- One of several searches has its turn. -/
def turnOf (network : Network) (projectId : Nat) (state : List HeadSearch × List WebRequest)
    (i : Nat) : List HeadSearch × List WebRequest :=
  match state.1[i]? with
  | none => state
  | some search =>
      let (search, sent) := search.turn network projectId state.2
      (state.1.set i search, sent)

theorem turnOf_of_idle (network : Network) (projectId : Nat)
    {state : List HeadSearch × List WebRequest} {i : Nat}
    (h : ∀ search ∈ state.1[i]?, search.pending? = none) :
    turnOf network projectId state i = state := by
  unfold turnOf
  rcases hSearch : state.1[i]? with _ | ⟨request, failure⟩ | ⟨result⟩
  · rfl
  · cases h _ hSearch
  · obtain ⟨hLength, hEq⟩ := List.getElem?_eq_some_iff.mp hSearch
    simp only [turn]
    rw [← hEq, List.set_getElem_self]

theorem turnOf_of_asking (network : Network) (projectId : Nat) {searches : List HeadSearch}
    {i : Nat} {request : WebRequest} {failure : UpkeepError}
    (h : searches[i]? = some (asking request failure)) (sent : List WebRequest) :
    turnOf network projectId (searches, sent) i =
      (searches.set i (hear projectId request (network request (sent.count request))),
        sent ++ [request]) := by
  simp [turnOf, h, turn_asking]

/-- The searches have their turns in an order. -/
def turns (network : Network) (projectId : Nat) (order : List Nat)
    (state : List HeadSearch × List WebRequest) : List HeadSearch × List WebRequest :=
  order.foldl (turnOf network projectId) state

theorem length_turns (network : Network) (projectId : Nat) (order : List Nat)
    (state : List HeadSearch × List WebRequest) :
    (turns network projectId order state).1.length = state.1.length := by
  induction order generalizing state with
  | nil => rfl
  | cons i order ih =>
      refine (ih _).trans ?_
      unfold turnOf
      split <;> simp

/-- The log accounts for what has become of several searches: it has the requests that were
sent and the replies of the network, and each search has heard its own part of it. -/
structure Accounts (network : Network) (projectId : Nat) (order : List Nat)
    (before after : List HeadSearch × List WebRequest) (log : List HeadExchange) : Prop where
  requests : after.2 = before.2 ++ log.map (·.request)
  replies : network.Answers before.2 log
  owners : ∀ exchange ∈ log, ∃ search ∈ before.1[exchange.search]?,
    search.pending? = some exchange.request
  searches : ∀ i, ∀ search ∈ before.1[i]?, ∃ last ∈ after.1[i]?,
    Hears projectId (order.count i) search ((HeadExchange.own i log).map (·.reply)) last

/-- A turn of a search that has finished, or of none, changes nothing. -/
theorem Accounts.idle {network : Network} {projectId i : Nat} {order : List Nat}
    {state after : List HeadSearch × List WebRequest} {log : List HeadExchange}
    (hIdle : ∀ search ∈ state.1[i]?, search.pending? = none)
    (h : Accounts network projectId order state after log) :
    Accounts network projectId (i :: order) state after log where
  requests := h.requests
  replies := h.replies
  owners := h.owners
  searches := by
    intro j search hSearch
    obtain ⟨last, hLast, hHears⟩ := h.searches j search hSearch
    refine ⟨last, hLast, ?_⟩
    by_cases hTurn : i = j
    · subst hTurn
      cases search with
      | asking request failure => cases hIdle _ hSearch
      | finished result =>
          obtain ⟨hNone, rfl⟩ := hHears.of_finished
          rw [hNone]
          exact .silent _ result
    · simpa [List.count_cons, hTurn] using hHears

/-- A search that still asks makes one request in its turn. -/
theorem Accounts.asked {network : Network} {projectId i : Nat} {order : List Nat}
    {searches : List HeadSearch} {sent : List WebRequest}
    {after : List HeadSearch × List WebRequest} {log : List HeadExchange}
    {request : WebRequest} {failure : UpkeepError}
    (hAsking : searches[i]? = some (asking request failure))
    (h : Accounts network projectId order
      (searches.set i (hear projectId request (network request (sent.count request))),
        sent ++ [request]) after log) :
    Accounts network projectId (i :: order) (searches, sent) after
      (⟨i, request, network request (sent.count request)⟩ :: log) where
  requests := by simp [h.requests]
  replies := ⟨rfl, h.replies⟩
  owners := by
    intro exchange hExchange
    rcases List.mem_cons.mp hExchange with rfl | hLater
    · exact ⟨_, hAsking, rfl⟩
    · obtain ⟨search, hSearch, hPending⟩ := h.owners exchange hLater
      by_cases hSame : i = exchange.search
      · subst hSame
        have hLength := (List.getElem?_eq_some_iff.mp hAsking).1
        obtain rfl : hear projectId request _ = search := by
          simpa [List.getElem?_set, hLength] using hSearch
        exact ⟨_, hAsking, congrArg some (pending?_hear hPending).symm⟩
      · exact ⟨search, by simpa [List.getElem?_set, hSame] using hSearch, hPending⟩
  searches := by
    intro j search hSearch
    by_cases hTurn : i = j
    · subst hTurn
      have hLength := (List.getElem?_eq_some_iff.mp hAsking).1
      obtain rfl : asking request failure = search := by simpa [hAsking] using hSearch
      obtain ⟨last, hLast, hHears⟩ := h.searches i
        (hear projectId request (network request (sent.count request)))
        (by simp [hLength])
      refine ⟨last, hLast, ?_⟩
      simpa [HeadExchange.own] using hHears.asked
    · obtain ⟨last, hLast, hHears⟩ := h.searches j search
        (by simpa [List.getElem?_set, hTurn] using hSearch)
      refine ⟨last, hLast, ?_⟩
      simpa [List.count_cons, HeadExchange.own, hTurn] using hHears

/-- Every order of turns has its log. -/
theorem exists_accounts (network : Network) (projectId : Nat) (order : List Nat)
    (state : List HeadSearch × List WebRequest) :
    ∃ log, Accounts network projectId order state (turns network projectId order state) log := by
  induction order generalizing state with
  | nil =>
      exact ⟨[], by simp [turns], trivial, by simp, fun i search hSearch =>
        ⟨search, hSearch, by simpa using Hears.spent search⟩⟩
  | cons i order ih =>
      obtain ⟨searches, sent⟩ := state
      have hStep : turns network projectId (i :: order) (searches, sent) =
          turns network projectId order (turnOf network projectId (searches, sent) i) := rfl
      obtain ⟨log, hLog⟩ := ih (turnOf network projectId (searches, sent) i)
      rw [hStep]
      -- Only a search that still asks adds to the log.
      rcases hSearch : searches[i]? with _ | ⟨request, failure⟩ | ⟨result⟩
      case some.asking =>
        rw [turnOf_of_asking network projectId hSearch] at hLog ⊢
        exact ⟨_, hLog.asked hSearch⟩
      all_goals
        have hIdle : ∀ search ∈ (searches, sent).1[i]?, search.pending? = none := by
          simp [hSearch, pending?]
        rw [turnOf_of_idle network projectId hIdle] at hLog ⊢
        exact ⟨log, hLog.idle hIdle⟩

/-! ## Rounds -/

/-- In a round the searches have their turns from the first to the last. -/
theorem turns_range' (network : Network) (projectId : Nat) (front rest : List HeadSearch)
    (sent : List WebRequest) :
    turns network projectId (List.range' front.length rest.length) (front ++ rest, sent) =
      (front ++ (round network projectId rest sent).1, (round network projectId rest sent).2) := by
  induction rest generalizing front sent with
  | nil => rfl
  | cons search rest ih =>
      have hTurn : turnOf network projectId (front ++ search :: rest, sent) front.length =
          (front ++ [(search.turn network projectId sent).1] ++ rest,
            (search.turn network projectId sent).2) := by
        simp [turnOf]
      have hRest := ih (front ++ [(search.turn network projectId sent).1])
        (search.turn network projectId sent).2
      rw [List.length_append, List.length_singleton] at hRest
      simp only [List.length_cons, List.range'_succ, turns, List.foldl_cons] at hRest ⊢
      rw [hTurn, hRest]
      simp [round]

/-- The order of the turns in a number of rounds. -/
def roundsOrder (count searches : Nat) : List Nat :=
  (List.replicate count (List.range searches)).flatten

theorem count_roundsOrder {searches i : Nat} (h : i < searches) (count : Nat) :
    (roundsOrder count searches).count i = count := by
  have hOnce : (List.range searches).count i = 1 :=
    List.count_eq_one_of_mem List.nodup_range (List.mem_range.mpr h)
  simp [roundsOrder, List.count_flatten, hOnce]

theorem rounds_eq_turns (network : Network) (projectId count : Nat) (searches : List HeadSearch)
    (sent : List WebRequest) :
    rounds network projectId count searches sent =
      turns network projectId (roundsOrder count searches.length) (searches, sent) := by
  induction count generalizing searches sent with
  | zero => rfl
  | succ count ih =>
      have hRound : turns network projectId (List.range searches.length) (searches, sent) =
          round network projectId searches sent := by
        simpa [List.range_eq_range'] using turns_range' network projectId [] searches sent
      have hLength := length_round network projectId searches sent
      calc rounds network projectId (count + 1) searches sent
          = rounds network projectId count (round network projectId searches sent).1
              (round network projectId searches sent).2 := rfl
        _ = turns network projectId (roundsOrder count searches.length)
              (turns network projectId (List.range searches.length) (searches, sent)) := by
              rw [ih, hLength, hRound]
        _ = turns network projectId (roundsOrder (count + 1) searches.length) (searches, sent) := by
              simp [turns, roundsOrder, List.replicate_succ, List.foldl_append]

end HeadSearch

end PipelineUpkeep

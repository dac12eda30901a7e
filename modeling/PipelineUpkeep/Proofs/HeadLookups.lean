import PipelineUpkeep.Proofs.HeadTurns
import PipelineUpkeep.Proofs.SegmentReading
/-!
# Heads are looked up with bounded retries

A lookup is decided by its first reply that is no reason to ask again, and five such replies
are borne before that; the sixth is the end of it.  Several lookups that take turns, in rounds
or in any other order, do not disturb each other: each gives what it gives alone when it hears
the same.  What they do share is the server: it is the replies to one address that are dealt
out among the lookups that ask there.  So lookups of branches whose names are segments, which
all have addresses of their own, give what they give alone on the same network.
-/

namespace PipelineUpkeep

open Data

/-! ## Replies -/

namespace Reply

/-- The reply is a reason to ask again: there was no connection, or the server is
overloaded or has failed. -/
def IsPassing : Reply → Prop
  | refused => True
  | broken => False
  | answered status _ => status = 429 ∨ 500 ≤ status ∧ status < 600

/-- What a reply says that is no reason to ask again. -/
inductive Settles (projectId : Nat) : Reply → HeadResult → Prop
  | missing (body : String) : Settles projectId (answered 404 body) (.ok none)
  | head {status : Nat} {body : String} {value : Value} {head : RefHead} :
      200 ≤ status → status < 300 → Json.read? body = some value →
        decodeBranch projectId .json value = some head → head.projectId = projectId →
        Settles projectId (answered status body) (.ok (some head))
  | unreadable {status : Nat} {body : String} :
      200 ≤ status → status < 300 →
        (∀ value, Json.read? body = some value → decodeBranch projectId .json value = none) →
        Settles projectId (answered status body) (.error (.network "unreadable reply"))
  | denied {status : Nat} {body : String} :
      status ≠ 404 → ¬(answered status body).IsPassing → ¬(200 ≤ status ∧ status < 300) →
        Settles projectId (answered status body) (.error (.api status body))
  | broken : Settles projectId broken (.error (.network "broken connection"))

/-- What a reason to ask again says if there is no asking again. -/
inductive Exhausts : Reply → HeadResult → Prop
  | overloaded {status : Nat} {body : String} :
      (answered status body).IsPassing →
        Exhausts (answered status body) (.error (.apiAfterRetries status 5))
  | unconnected : Exhausts refused (.error (.network "no connection"))

theorem projectId_of_decodeBranch {projectId : Nat} {value : Value} {head : RefHead}
    (h : decodeBranch projectId .json value = some head) : head.projectId = projectId := by
  obtain ⟨fields, -, hFields⟩ := Option.bind_eq_some_iff.mp h
  split at hFields
  · obtain ⟨name, -, hName⟩ := Option.bind_eq_some_iff.mp hFields
    obtain ⟨⟨sha, message⟩, -, hHead⟩ := Option.bind_eq_some_iff.mp hName
    obtain rfl := Option.some.inj hHead
    rfl
  · cases hFields

theorem isPassing_iff (status : Nat) (body : String) :
    (answered status body).IsPassing ↔ PipelineUpkeep.isPassing status = true := by
  simp [IsPassing, PipelineUpkeep.isPassing]

theorem exists_again (projectId : Nat) {reply : Reply} (h : reply.IsPassing) :
    ∃ error, reply.verdict projectId = .again error ∧ reply.Exhausts (.error error) := by
  cases reply with
  | refused => exact ⟨_, rfl, .unconnected⟩
  | broken => cases h
  | answered status body =>
      have hFound : status ≠ 404 := by
        rintro rfl
        simp [IsPassing] at h
      refine ⟨.apiAfterRetries status 5, ?_, .overloaded h⟩
      simp [verdict, hFound, (isPassing_iff status body).mp h, maxRetries]

theorem exists_settled (projectId : Nat) {reply : Reply} (h : ¬reply.IsPassing) :
    ∃ result, reply.verdict projectId = .settled result ∧ reply.Settles projectId result := by
  cases reply with
  | refused => exact absurd trivial h
  | broken => exact ⟨_, rfl, .broken⟩
  | answered status body =>
      have hPassing : PipelineUpkeep.isPassing status = false :=
        Bool.eq_false_iff.mpr fun hStatus => h ((isPassing_iff status body).mpr hStatus)
      by_cases hMissing : status = 404
      · subst hMissing
        exact ⟨_, rfl, .missing body⟩
      by_cases hGood : 200 ≤ status ∧ status < 300
      · rcases hHead : (Json.read? body).bind (decodeBranch projectId .json) with _ | head
        · have hUnreadable : ∀ value, Json.read? body = some value →
              decodeBranch projectId .json value = none := by
            intro value hValue
            simpa [hValue] using hHead
          refine ⟨.error (.network "unreadable reply"), ?_, .unreadable hGood.1 hGood.2 hUnreadable⟩
          simp [verdict, hMissing, hPassing, hGood, hHead]
        · obtain ⟨value, hValue, hDecode⟩ := Option.bind_eq_some_iff.mp hHead
          refine ⟨.ok (some head), ?_, .head hGood.1 hGood.2 hValue hDecode
            (projectId_of_decodeBranch hDecode)⟩
          simp [verdict, hMissing, hPassing, hGood, hHead]
      · refine ⟨.error (.api status body), ?_, .denied hMissing h hGood⟩
        simp [verdict, hMissing, hPassing, hGood]

end Reply

/-! ## One lookup -/

namespace HeadSearch

theorem exists_hear_eq_asking {projectId : Nat} {reply : Reply} (h : reply.IsPassing)
    (request : WebRequest) :
    ∃ error, hear projectId request reply = asking request error ∧
      reply.Exhausts (.error error) := by
  obtain ⟨error, hVerdict, hExhausts⟩ := Reply.exists_again projectId h
  exact ⟨error, by simp [hear, hVerdict], hExhausts⟩

theorem exists_hear_eq_finished {projectId : Nat} {reply : Reply} (h : ¬reply.IsPassing)
    (request : WebRequest) :
    ∃ result, hear projectId request reply = finished result ∧
      reply.Settles projectId result := by
  obtain ⟨result, hVerdict, hSettles⟩ := Reply.exists_settled projectId h
  exact ⟨result, by simp [hear, hVerdict], hSettles⟩

section Outcomes

variable {projectId turns : Nat} {request : WebRequest} {failure : UpkeepError}
  {replies : List Reply} {last : HeadSearch} {outcome : Nat → Reply}

/-- As long as it has turns, a search bears reasons to ask again, and remembers the last. -/
theorem Hears.bears {k : Nat}
    (h : Hears projectId (k + turns) (asking request failure) replies last)
    (hOutcome : ∀ n : Nat, ∀ reply ∈ replies[n]?, reply = outcome n)
    (hPassing : ∀ i < k, (outcome i).IsPassing) :
    ∃ failure later, replies.length = k + later.length ∧
      (∀ n : Nat, ∀ reply ∈ later[n]?, reply = outcome (k + n)) ∧
      Hears projectId turns (asking request failure) later last ∧
      ∀ j, k = j + 1 → (outcome j).Exhausts (.error failure) := by
  induction k generalizing turns with
  | zero => exact ⟨failure, replies, by simp, by simpa using hOutcome, by simpa using h, by simp⟩
  | succ k ih =>
      obtain ⟨_, later, hLength, hLater, hHears, -⟩ := @ih (turns + 1)
        (by rwa [Nat.add_right_comm] at h) fun i hi => hPassing i (by omega)
      cases hHears with
      | @asked _ _ _ reply later _ hRest =>
          obtain rfl : reply = outcome k := hLater 0 reply rfl
          obtain ⟨error, hHear, hExhausts⟩ :=
            exists_hear_eq_asking (hPassing k k.lt_succ_self) request
          rw [hHear] at hRest
          refine ⟨error, later, by simp [hLength]; omega, fun n => ?_, hRest, ?_⟩
          · rw [Nat.add_right_comm]
            exact hLater (n + 1)
          · rintro j hj
            obtain rfl : k = j := Nat.succ.inj hj
            exact hExhausts

/-- The first reply that is no reason to ask again is the last that a search hears. -/
theorem Hears.settled {k : Nat} (h : Hears projectId turns (asking request failure) replies last)
    (hOutcome : ∀ n : Nat, ∀ reply ∈ replies[n]?, reply = outcome n) (hTurns : k < turns)
    (hPassing : ∀ i < k, (outcome i).IsPassing) (hSettled : ¬(outcome k).IsPassing) :
    replies.length = k + 1 ∧ (outcome k).Settles projectId last.result := by
  obtain ⟨rest, rfl⟩ := Nat.exists_eq_add_of_lt hTurns
  obtain ⟨_, later, hLength, hLater, hHears, -⟩ :=
    @bears _ (rest + 1) _ _ _ _ _ _ h hOutcome hPassing
  cases hHears with
  | @asked _ _ _ reply _ _ hRest =>
      obtain rfl : reply = outcome k := hLater 0 reply rfl
      obtain ⟨result, hHear, hSettles⟩ := exists_hear_eq_finished hSettled request
      rw [hHear] at hRest
      obtain ⟨rfl, rfl⟩ := hRest.of_finished
      exact ⟨hLength, hSettles⟩

/-- A search that hears nothing but reasons to ask again asks in every turn. -/
theorem Hears.exhausted
    (h : Hears projectId (turns + 1) (asking request failure) replies last)
    (hOutcome : ∀ n : Nat, ∀ reply ∈ replies[n]?, reply = outcome n)
    (hPassing : ∀ i < turns + 1, (outcome i).IsPassing) :
    replies.length = turns + 1 ∧ (outcome turns).Exhausts last.result := by
  obtain ⟨_, later, hLength, -, hHears, hExhausts⟩ := @bears _ 0 _ _ _ _ _ _ h hOutcome hPassing
  cases hHears
  exact ⟨hLength, hExhausts turns rfl⟩

end Outcomes

end HeadSearch

/-! ## Several lookups -/

open HeadSearch

/-- Ask for the heads of branches with the turns of the lookups in a given order. -/
def BranchServer.headsByTurns (server : BranchServer) (network : Network) (projectId : Nat)
    (projectPath : String) (branches : List String) (order : List Nat) :
    List (String × HeadResult) × List WebRequest :=
  let searches := branches.map fun branch => HeadSearch.start (server.request? projectPath branch)
  let (searches, sent) := turns network projectId order (searches, [])
  (branches.zip (searches.map HeadSearch.result), sent)

/-- What may come of looking up branches side by side: every lookup has six turns, but
nothing is said about their order. -/
def BranchServer.MayFind (server : BranchServer) (network : Network) (projectId : Nat)
    (projectPath : String) (branches : List String)
    (outcome : List (String × HeadResult) × List WebRequest) : Prop :=
  ∃ order : List Nat, (∀ i < branches.length, order.count i = 6) ∧
    outcome = server.headsByTurns network projectId projectPath branches order

namespace BranchServer

variable {server : BranchServer} {network : Network} {projectId : Nat} {projectPath : String}
  {branches : List String} {outcome : List (String × HeadResult) × List WebRequest}

/-- Rounds are one order of turns. -/
theorem mayFind_branchHeads (server : BranchServer) (network : Network) (projectId : Nat)
    (projectPath : String) (branches : List String) :
    server.MayFind network projectId projectPath branches
      (server.branchHeads network projectId projectPath branches) := by
  refine ⟨roundsOrder 6 branches.length, fun i hi => count_roundsOrder hi 6, ?_⟩
  simp [branchHeads, headsByTurns, rounds_eq_turns, maxRetries]

theorem address_of_request? {branch : String} {request : WebRequest}
    (h : server.request? projectPath branch = some request) :
    request.address = server.branchAddress projectPath branch := by
  unfold request? at h
  split at h
  · obtain rfl := Option.some.inj h
    rfl
  · cases h

/-- What comes of the lookups is accounted for. -/
theorem MayFind.exists_log
    (h : server.MayFind network projectId projectPath branches outcome) :
    outcome.1.map (·.1) = branches ∧ ∃ log : List HeadExchange,
      log.map (·.request) = outcome.2 ∧ network.Answers [] log ∧
      (∀ exchange ∈ log, ∃ branch ∈ branches[exchange.search]?,
        server.request? projectPath branch = some exchange.request) ∧
      ∀ i : Nat, ∀ pair ∈ outcome.1[i]?, ∃ last : HeadSearch, last.result = pair.2 ∧
        Hears projectId 6 (HeadSearch.start (server.request? projectPath pair.1))
          ((HeadExchange.own i log).map (·.reply)) last := by
  obtain ⟨order, hOrder, rfl⟩ := h
  generalize hSearches : branches.map (fun branch =>
    HeadSearch.start (server.request? projectPath branch)) = searches
  obtain ⟨log, hLog⟩ := exists_accounts network projectId order (searches, [])
  have hOutcome : server.headsByTurns network projectId projectPath branches order =
      (branches.zip ((turns network projectId order (searches, [])).1.map HeadSearch.result),
        (turns network projectId order (searches, [])).2) := by
    rw [headsByTurns, hSearches]
  have hLength : (turns network projectId order (searches, [])).1.length = branches.length := by
    rw [length_turns, ← hSearches, List.length_map]
  rw [hOutcome]
  refine ⟨List.map_fst_zip (by simp [hLength]), log, by simp [hLog.requests], hLog.replies, ?_, ?_⟩
  · intro exchange hExchange
    obtain ⟨search, hSearch, hPending⟩ := hLog.owners exchange hExchange
    rw [← hSearches] at hSearch
    obtain ⟨branch, hBranch, rfl⟩ : ∃ branch ∈ branches[exchange.search]?,
        HeadSearch.start (server.request? projectPath branch) = search := by
      simpa using hSearch
    refine ⟨branch, hBranch, ?_⟩
    cases hRequest : server.request? projectPath branch with
    | none => simp [hRequest, HeadSearch.start, pending?] at hPending
    | some request => simpa [hRequest, HeadSearch.start, pending?] using hPending
  · rintro i ⟨branch, result⟩ hPair
    obtain ⟨hBranch, hResult⟩ := List.getElem?_zip_eq_some.mp hPair
    obtain ⟨last, hLast, hHears⟩ := hLog.searches i
      (HeadSearch.start (server.request? projectPath branch)) (by simp [← hSearches, hBranch])
    have hIndex : i < branches.length := (List.getElem?_eq_some_iff.mp hBranch).1
    rw [hOrder i hIndex] at hHears
    refine ⟨last, ?_, hHears⟩
    rw [List.getElem?_map, hLast] at hResult
    exact Option.some.inj hResult

/-- Each branch is looked up as if it were alone: the exchanges with the network divide into
those of the lookups, and each lookup gives, with the same requests, what it gives alone on
any network that replies to it alike. -/
structure LooksUpEach (server : BranchServer) (network : Network) (projectId : Nat)
    (projectPath : String) (branches : List String)
    (outcome : List (String × HeadResult) × List WebRequest) : Prop where
  inOrder : outcome.1.map (·.1) = branches
  exchanges : ∃ log : List HeadExchange, log.map (·.request) = outcome.2 ∧ network.Answers [] log ∧
    (∀ exchange ∈ log, ∃ branch ∈ branches[exchange.search]?,
      server.request? projectPath branch = some exchange.request) ∧
    ∀ i : Nat, ∀ pair ∈ outcome.1[i]?, ∀ other : Network,
      (∀ n : Nat, ∀ exchange ∈ (HeadExchange.own i log)[n]?,
        exchange.reply = other exchange.request n) →
      server.branchHeads other projectId projectPath [pair.1] =
        ([pair], (HeadExchange.own i log).map (·.request))

/-- A lookup alone hears what the network replies to its request, one after the other. -/
theorem exists_hears_alone (server : BranchServer) (network : Network) (projectId : Nat)
    (projectPath branch : String) :
    ∃ (replies : List Reply) (last : HeadSearch) (sent : List WebRequest),
      server.branchHeads network projectId projectPath [branch] =
        ([(branch, last.result)], sent) ∧
      Hears projectId 6 (HeadSearch.start (server.request? projectPath branch)) replies last ∧
      sent.length = replies.length ∧
      (∀ request ∈ sent, server.request? projectPath branch = some request) ∧
      ∀ request, server.request? projectPath branch = some request →
        ∀ n : Nat, ∀ reply ∈ replies[n]?, reply = network request n := by
  obtain ⟨hBranches, log, hSent, hAnswers, hOwners, hHears⟩ :=
    (mayFind_branchHeads server network projectId projectPath [branch]).exists_log
  generalize server.branchHeads network projectId projectPath [branch] = outcome at *
  obtain ⟨heads, sent⟩ := outcome
  obtain ⟨⟨name, result⟩, rfl, hName⟩ := List.map_eq_singleton_iff.mp hBranches
  obtain rfl : name = branch := hName
  obtain rfl : log.map (·.request) = sent := hSent
  -- There is one search, so the whole log is its own.
  have hOwner : ∀ exchange ∈ log, exchange.search = 0 ∧
      server.request? projectPath name = some exchange.request := by
    intro exchange hExchange
    obtain ⟨other, hOther, hRequest⟩ := hOwners exchange hExchange
    rw [Option.mem_def, List.getElem?_singleton, Option.ite_none_right_eq_some] at hOther
    obtain ⟨hIndex, hEq⟩ := hOther
    rw [Option.some.inj hEq]
    exact ⟨hIndex, hRequest⟩
  have hOwn : HeadExchange.own 0 log = log :=
    List.filter_eq_self.mpr fun exchange hExchange => by simp [(hOwner exchange hExchange).1]
  obtain ⟨last, rfl, hLast⟩ := hHears 0 _ rfl
  rw [hOwn] at hLast
  refine ⟨_, last, _, rfl, hLast, by simp, ?_, ?_⟩
  · intro request hRequest
    obtain ⟨exchange, hExchange, rfl⟩ := List.mem_map.mp hRequest
    exact (hOwner exchange hExchange).2
  · intro request hRequest n reply hReply
    obtain ⟨exchange, hExchange, rfl⟩ : ∃ exchange ∈ log[n]?, exchange.reply = reply := by
      simpa using hReply
    have hSole : ∀ exchange ∈ log, exchange.search = 0 ↔ exchange.request = request := by
      intro exchange hMem
      obtain ⟨hSearch, hOther⟩ := hOwner exchange hMem
      rw [hRequest] at hOther
      exact iff_of_true hSearch (Option.some.inj hOther).symm
    simpa using (hAnswers.reply_own hSole (by rwa [hOwn])).2

/-- Requests that are all the same are known by their number. -/
private theorem eq_of_same_requests {request? : Option WebRequest} {a b : List WebRequest}
    (hLength : a.length = b.length) (hA : ∀ request ∈ a, request? = some request)
    (hB : ∀ request ∈ b, request? = some request) : a = b :=
  List.ext_getElem hLength fun _ hIndexA hIndexB => Option.some.inj <|
    (hA _ (List.getElem_mem hIndexA)).symm.trans (hB _ (List.getElem_mem hIndexB))

theorem MayFind.looksUpEach
    (h : server.MayFind network projectId projectPath branches outcome) :
    server.LooksUpEach network projectId projectPath branches outcome := by
  obtain ⟨hBranches, log, hSent, hAnswers, hOwners, hHears⟩ := h.exists_log
  refine ⟨hBranches, log, hSent, hAnswers, hOwners, ?_⟩
  intro i pair hPair other hOther
  have hOwn : ∀ exchange ∈ HeadExchange.own i log,
      server.request? projectPath pair.1 = some exchange.request := by
    intro exchange hExchange
    obtain ⟨hMem, rfl⟩ := HeadExchange.mem_own.mp hExchange
    obtain ⟨branch, hBranch, hRequest⟩ := hOwners exchange hMem
    rw [← hBranches, List.getElem?_map, hPair] at hBranch
    obtain rfl : pair.1 = branch := Option.some.inj hBranch
    exact hRequest
  obtain ⟨last, hResult, hBatch⟩ := hHears i pair hPair
  obtain ⟨replies, last', sent, hAlone, hAloneHears, hLength, hRequests, hReplies⟩ :=
    exists_hears_alone server other projectId projectPath pair.1
  -- Alone or not, the lookup hears the same as long as it asks.
  obtain ⟨rfl, rfl⟩ : replies = (HeadExchange.own i log).map (·.reply) ∧ last' = last := by
    refine hAloneHears.unique hBatch fun n reply hReply reply' hReply' => ?_
    obtain ⟨exchange, hExchange, rfl⟩ :
        ∃ exchange ∈ (HeadExchange.own i log)[n]?, exchange.reply = reply' := by
      simpa using hReply'
    have hRequest := hOwn exchange (List.mem_of_getElem? hExchange)
    exact (hReplies _ hRequest n reply hReply).trans (hOther n exchange hExchange).symm
  have hSame : sent = (HeadExchange.own i log).map (·.request) := by
    refine eq_of_same_requests (by simpa using hLength) hRequests ?_
    simpa using hOwn
  rw [hAlone, hSame, hResult]

/-- Lookups that ask at addresses of their own give what they give alone on their network. -/
theorem LooksUpEach.heads_eq
    (h : server.LooksUpEach network projectId projectPath branches outcome)
    (hDistinct : (branches.map (server.branchAddress projectPath)).Nodup) :
    outcome.1 = branches.flatMap fun branch =>
      (server.branchHeads network projectId projectPath [branch]).1 := by
  obtain ⟨hBranches, log, -, hAnswers, hOwners, hAlone⟩ := h
  have hPair : ∀ pair ∈ outcome.1,
      (server.branchHeads network projectId projectPath [pair.1]).1 = [pair] := by
    intro pair hMem
    obtain ⟨i, hIndex⟩ := List.mem_iff_getElem?.mp hMem
    have hBranch : branches[i]? = some pair.1 := by
      rw [← hBranches, List.getElem?_map, hIndex]
      rfl
    rw [hAlone i pair hIndex network ?_]
    intro n exchange hExchange
    obtain ⟨hMem, hSearch⟩ := HeadExchange.mem_own.mp (List.mem_of_getElem? hExchange)
    have hRequest {other : HeadExchange} (hOther : other ∈ log) (hSearch : other.search = i) :
        server.request? projectPath pair.1 = some other.request := by
      obtain ⟨branch, hOtherBranch, hOtherRequest⟩ := hOwners other hOther
      rw [hSearch, hBranch] at hOtherBranch
      rwa [Option.some.inj hOtherBranch]
    -- The address tells the lookup, so every request there is one of its own.
    have hSole : ∀ other ∈ log, other.search = i ↔ other.request = exchange.request := by
      intro other hOther
      refine ⟨fun hOtherSearch => Option.some.inj
        ((hRequest hOther hOtherSearch).symm.trans (hRequest hMem hSearch)), fun hEq => ?_⟩
      obtain ⟨branch, hOtherBranch, hOtherRequest⟩ := hOwners other hOther
      have hAddress : server.branchAddress projectPath branch =
          server.branchAddress projectPath pair.1 := by
        rw [← address_of_request? hOtherRequest, hEq, address_of_request? (hRequest hMem hSearch)]
      have hIndexOther : other.search < branches.length :=
        (List.getElem?_eq_some_iff.mp hOtherBranch).1
      refine (List.getElem?_inj (by simpa using hIndexOther) hDistinct).mp ?_
      rw [List.getElem?_map, List.getElem?_map, hOtherBranch, hBranch]
      exact congrArg some hAddress
    simpa using (hAnswers.reply_own hSole hExchange).2
  calc outcome.1
      = outcome.1.flatMap fun pair => [pair] := by simp
    _ = outcome.1.flatMap fun pair =>
          (server.branchHeads network projectId projectPath [pair.1]).1 :=
        List.flatMap_congr fun pair hMem => (hPair pair hMem).symm
    _ = branches.flatMap fun branch =>
          (server.branchHeads network projectId projectPath [branch]).1 := by
        rw [← hBranches, List.flatMap_map]

end BranchServer

/-! ## The law -/

/-- The requests of a lookup and its result are as the network's replies to its request say,
taken one after the other: up to five reasons to ask again are borne. -/
structure Network.DecidesLookup (network : Network) (projectId : Nat) (request : WebRequest)
    (result : HeadResult) (sent : List WebRequest) : Prop where
  settled : ∀ k ≤ 5, (∀ i < k, (network request i).IsPassing) →
    ¬(network request k).IsPassing →
      sent = List.replicate (k + 1) request ∧ (network request k).Settles projectId result
  exhausted : (∀ i < 6, (network request i).IsPassing) →
    sent = List.replicate 6 request ∧ (network request 5).Exhausts result

theorem BranchServer.exists_decidesLookup (server : BranchServer) (network : Network)
    (projectId : Nat) (projectPath branch : String) :
    ∃ result sent,
      server.branchHeads network projectId projectPath [branch] = ([(branch, result)], sent) ∧
      (∀ request, server.request? projectPath branch = some request →
        network.DecidesLookup projectId request result sent) ∧
      (server.request? projectPath branch = none →
        sent = [] ∧ ∃ reason, result = .error (.network reason)) := by
  obtain ⟨replies, last, sent, hAlone, hHears, hLength, hRequests, hReplies⟩ :=
    exists_hears_alone server network projectId projectPath branch
  refine ⟨last.result, sent, hAlone, fun request hRequest => ?_, fun hNone => ?_⟩
  · rw [hRequest] at hHears hRequests
    have hSent {count : Nat} (hCount : replies.length = count) :
        sent = List.replicate count request :=
      List.eq_replicate_iff.mpr ⟨hLength.trans hCount, fun other hOther =>
        (Option.some.inj (hRequests other hOther)).symm⟩
    constructor
    · intro k hBound hPassing hSettled
      obtain ⟨hCount, hSettles⟩ := hHears.settled (hReplies request hRequest)
        (Nat.lt_succ_of_le hBound) hPassing hSettled
      exact ⟨hSent hCount, hSettles⟩
    · intro hPassing
      obtain ⟨hCount, hExhausts⟩ := hHears.exhausted (hReplies request hRequest) hPassing
      exact ⟨hSent hCount, hExhausts⟩
  · rw [hNone] at hHears
    obtain ⟨rfl, rfl⟩ := hHears.of_finished
    exact ⟨List.length_eq_zero_iff.mp hLength, _, rfl⟩

/-- A lookup bears five reasons to ask again, and what comes next decides it.  Lookups side by
side, in rounds or in any other order of turns, give what each gives alone when it hears the
same; for distinct names that are segments this is what it gives alone on the same network. -/
theorem head_lookups_are_bounded_and_independent (server : BranchServer) (network : Network)
    (projectId : Nat) (projectPath : String) :
    (∀ branch, ∃ result sent,
      server.branchHeads network projectId projectPath [branch] = ([(branch, result)], sent) ∧
      (∀ request, server.request? projectPath branch = some request →
        network.DecidesLookup projectId request result sent) ∧
      (server.request? projectPath branch = none →
        sent = [] ∧ ∃ reason, result = .error (.network reason))) ∧
    ∀ branches,
      server.MayFind network projectId projectPath branches
        (server.branchHeads network projectId projectPath branches) ∧
      ∀ outcome, server.MayFind network projectId projectPath branches outcome →
        server.LooksUpEach network projectId projectPath branches outcome ∧
        (branches.Nodup → (∀ branch ∈ branches, IsSegmentText branch) →
          outcome.1 = branches.flatMap fun branch =>
            (server.branchHeads network projectId projectPath [branch]).1) := by
  refine ⟨server.exists_decidesLookup network projectId projectPath, fun branches =>
    ⟨server.mayFind_branchHeads network projectId projectPath branches, fun outcome hOutcome =>
      ⟨hOutcome.looksUpEach, fun hNodup hNames => hOutcome.looksUpEach.heads_eq ?_⟩⟩⟩
  exact hNodup.map_on fun a hA b hB hEq =>
    (BranchServer.branchAddress_inj (hNames a hA) (hNames b hB)).mp hEq

/-- A server below `http://localhost`. -/
def localServer : BranchServer where
  address := ⟨"http", "localhost", none, ["api".toList, "v4".toList]⟩
  token := none

/-- How `localServer` is asked for a branch of a project. -/
def localRequest (branch : String) : WebRequest :=
  ⟨localServer.branchAddress "group/project" branch, none⟩

/-- A network that is busy for two requests for `main` and then knows no such branch; for
everything else it is always busy. -/
def busyNetwork : Network := fun request earlier =>
  if request.address.path.getLast? = some "main".toList ∧ 2 ≤ earlier then .answered 404 ""
  else .answered 503 ""

/-- `main` is found missing with the third request; six requests for `topic` come to nothing,
and neither lookup changes what the other finds. -/
theorem head_lookups_are_bounded_and_independent_busy :
    (localServer.request? "group/project" "main" = some (localRequest "main") ∧
      (∀ i < 2, (busyNetwork (localRequest "main") i).IsPassing) ∧
      ¬(busyNetwork (localRequest "main") 2).IsPassing ∧
      localServer.branchHeads busyNetwork 1 "group/project" ["main"] =
        ([("main", .ok none)], List.replicate 3 (localRequest "main"))) ∧
    (localServer.request? "group/project" "topic" = some (localRequest "topic") ∧
      (∀ i < 6, (busyNetwork (localRequest "topic") i).IsPassing) ∧
      localServer.branchHeads busyNetwork 1 "group/project" ["topic"] =
        ([("topic", .error (.apiAfterRetries 503 5))],
          List.replicate 6 (localRequest "topic"))) ∧
    ["main", "topic"].Nodup ∧ (∀ branch ∈ ["main", "topic"], IsSegmentText branch) ∧
    (localServer.branchHeads busyNetwork 1 "group/project" ["main", "topic"]).1 =
      [("main", .ok none), ("topic", .error (.apiAfterRetries 503 5))] := by
  obtain ⟨hSingle, hSeveral⟩ :=
    head_lookups_are_bounded_and_independent localServer busyNetwork 1 "group/project"
  have hBusy : (Reply.answered 503 "").IsPassing := .inr ⟨by decide, by decide⟩
  have hMain : localServer.request? "group/project" "main" = some (localRequest "main") := by
    decide
  have hTopic : localServer.request? "group/project" "topic" = some (localRequest "topic") := by
    decide
  have hMainPassing : ∀ i < 2, (busyNetwork (localRequest "main") i).IsPassing := by
    intro i hi
    rw [busyNetwork, if_neg fun h => absurd h.2 (by omega)]
    exact hBusy
  have hMainReply : busyNetwork (localRequest "main") 2 = .answered 404 "" := by decide
  have hMainSettled : ¬(Reply.answered 404 "").IsPassing := by simp [Reply.IsPassing]
  have hTopicReply (i : Nat) : busyNetwork (localRequest "topic") i = .answered 503 "" := by
    rw [busyNetwork, if_neg fun h => absurd h.1 (by decide)]
  have hMainAlone : localServer.branchHeads busyNetwork 1 "group/project" ["main"] =
      ([("main", .ok none)], List.replicate 3 (localRequest "main")) := by
    obtain ⟨result, sent, hHeads, hDecides, -⟩ := hSingle "main"
    obtain ⟨rfl, hSettles⟩ := (hDecides _ hMain).settled 2 (by decide) hMainPassing
      (by rwa [hMainReply])
    rw [hMainReply] at hSettles
    obtain rfl : result = .ok none := by
      cases hSettles with
      | missing => rfl
      | head _ hGood | unreadable _ hGood => exact absurd hGood (by decide)
      | denied hFound => exact absurd rfl hFound
    exact hHeads
  have hTopicAlone : localServer.branchHeads busyNetwork 1 "group/project" ["topic"] =
      ([("topic", .error (.apiAfterRetries 503 5))], List.replicate 6 (localRequest "topic")) := by
    obtain ⟨result, sent, hHeads, hDecides, -⟩ := hSingle "topic"
    obtain ⟨rfl, hExhausts⟩ := (hDecides _ hTopic).exhausted fun i _ => by rwa [hTopicReply]
    rw [hTopicReply] at hExhausts
    obtain rfl : result = .error (.apiAfterRetries 503 5) := by
      cases hExhausts
      rfl
    exact hHeads
  have hNames : ∀ branch ∈ ["main", "topic"], IsSegmentText branch := by
    intro branch hBranch
    obtain rfl | rfl : branch = "main" ∨ branch = "topic" := by simpa using hBranch
    all_goals exact ⟨by decide, by decide, by simp [isTabOrBreak]⟩
  have hNodup : ["main", "topic"].Nodup := by decide
  obtain ⟨hRounds, hOutcomes⟩ := hSeveral ["main", "topic"]
  refine ⟨⟨hMain, hMainPassing, by rwa [hMainReply], hMainAlone⟩,
    ⟨hTopic, fun i _ => by rwa [hTopicReply], hTopicAlone⟩, hNodup, hNames, ?_⟩
  rw [(hOutcomes _ hRounds).2 hNodup hNames]
  simp [hMainAlone, hTopicAlone]

end PipelineUpkeep

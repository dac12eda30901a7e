import PipelineUpkeep.Command.Execution
import PipelineUpkeep.Proofs.HeadLookups
import PipelineUpkeep.Proofs.LastRows
import PipelineUpkeep.Proofs.StoreIntegrity
/-!
# Heads are stored under the names that were answered

The heads that a synchronization has found are stored one after the other.  The project of
each is the one that was asked about, but its ref is the name in the answer, which need not be
the branch that was asked for.  So other projects and all other rows stay as they are, and of
the refs of the project those change that an answer names.  If each answer has the name that
was asked for, nothing else has changed than what was asked for; a server that answers under
another name changes a ref that nobody asked about.
-/

namespace PipelineUpkeep

open Data

/-! ## Found heads -/

namespace Session

theorem mem_foundHeads_iff {results : List (String × HeadResult)} {head : RefHead} :
    head ∈ foundHeads results ↔ ∃ branch, (branch, .ok (some head)) ∈ results := by
  simp only [foundHeads, List.mem_filterMap, Prod.exists]
  constructor
  · rintro ⟨branch, result, hMem, hHead⟩
    cases result with
    | error => cases hHead
    | ok found => exact ⟨branch, (hHead : found = some head) ▸ hMem⟩
  · rintro ⟨branch, hMem⟩
    exact ⟨branch, _, hMem, rfl⟩

theorem foundHeads_split (earlier : List (String × HeadResult)) (branch : String)
    (head : RefHead) (later : List (String × HeadResult)) :
    foundHeads (earlier ++ (branch, .ok (some head)) :: later) =
      foundHeads earlier ++ head :: foundHeads later := by
  simp [foundHeads, List.filterMap_append]

end Session

namespace HeadSearch

/-- A search that has found a head has heard a reply that describes it. -/
theorem Hears.exists_settles {projectId turns : Nat} {search last : HeadSearch}
    {replies : List Reply} {head : RefHead} (h : Hears projectId turns search replies last)
    (hSearch : search.result ≠ .ok (some head)) (hLast : last.result = .ok (some head)) :
    ∃ reply ∈ replies, reply.Settles projectId (.ok (some head)) := by
  induction h with
  | silent | spent => exact absurd hLast hSearch
  | @asked turns request failure reply replies last hRest ih =>
      by_cases hPassing : reply.IsPassing
      · obtain ⟨error, hHear, -⟩ : ∃ error, hear projectId request reply = asking request error ∧
            reply.Exhausts (.error error) := exists_hear_eq_asking hPassing request
        rw [hHear] at ih
        obtain ⟨other, hMem, hSettles⟩ := ih nofun hLast
        exact ⟨other, List.mem_cons_of_mem _ hMem, hSettles⟩
      · obtain ⟨result, hHear, hSettles⟩ : ∃ result, hear projectId request reply =
            finished result ∧ reply.Settles projectId result :=
          exists_hear_eq_finished hPassing request
        rw [hHear] at hRest
        obtain ⟨-, rfl⟩ := hRest.of_finished
        obtain rfl : result = .ok (some head) := hLast
        exact ⟨reply, List.mem_cons_self, hSettles⟩

end HeadSearch

/-- Every reply of a log is one of the network's to its request. -/
theorem Network.Answers.exists_reply {network : Network} {sent : List WebRequest}
    {log : List HeadExchange} (h : network.Answers sent log) {exchange : HeadExchange}
    (hMem : exchange ∈ log) : ∃ earlier, exchange.reply = network exchange.request earlier := by
  induction log generalizing sent with
  | nil => cases hMem
  | cons first rest ih =>
      rcases List.mem_cons.mp hMem with rfl | hRest
      · exact ⟨_, h.1⟩
      · exact ih h.2 hRest

namespace BranchServer

/-- The server has described the head when it was asked for the branch. -/
def HasDescribed (server : BranchServer) (network : Network) (projectId : Nat)
    (projectPath branch : String) (head : RefHead) : Prop :=
  ∃ request earlier, server.request? projectPath branch = some request ∧
    (network request earlier).Settles projectId (.ok (some head))

theorem MayFind.hasDescribed {server : BranchServer} {network : Network} {projectId : Nat}
    {projectPath branch : String} {branches : List String} {head : RefHead}
    {outcome : List (String × HeadResult) × List WebRequest}
    (h : server.MayFind network projectId projectPath branches outcome)
    (hFound : (branch, .ok (some head)) ∈ outcome.1) :
    server.HasDescribed network projectId projectPath branch head := by
  obtain ⟨hBranches, log, -, hAnswers, hOwners, hHears⟩ := h.exists_log
  obtain ⟨i, hIndex⟩ := List.mem_iff_getElem?.mp hFound
  obtain ⟨last, hLast, hSearch⟩ := hHears i _ hIndex
  have hStart : (HeadSearch.start (server.request? projectPath branch)).result ≠
      .ok (some head) := by
    cases server.request? projectPath branch <;> exact nofun
  obtain ⟨reply, hReply, hSettles⟩ := hSearch.exists_settles hStart hLast
  obtain ⟨exchange, hOwn, rfl⟩ := List.mem_map.mp hReply
  obtain ⟨hMem, rfl⟩ := HeadExchange.mem_own.mp hOwn
  obtain ⟨other, hOther, hRequest⟩ := hOwners exchange hMem
  rw [← hBranches, List.getElem?_map, hIndex] at hOther
  obtain rfl : branch = other := Option.some.inj hOther
  obtain ⟨earlier, hEarlier⟩ := hAnswers.exists_reply hMem
  exact ⟨exchange.request, earlier, hRequest, hEarlier ▸ hSettles⟩

end BranchServer

theorem Reply.Settles.projectId_eq {projectId : Nat} {reply : Reply} {head : RefHead}
    (h : reply.Settles projectId (.ok (some head))) : head.projectId = projectId := by
  cases h with
  | head _ _ _ _ hProject => exact hProject

/-! ## Stored heads -/

namespace Store

theorem storeHeads_eq (store : Store) (heads : List RefHead) :
    Session.storeHeads store heads =
      { store with refs := heads.foldl RefTable.set store.refs } := by
  induction heads generalizing store with
  | nil => rfl
  | cons head rest ih => exact ih (store.setRefHead head)

theorem refs_storeHeads_eq_some_iff (store : Store) (heads : List RefHead) (projectId : Nat)
    (ref : String) (head : RefHead) :
    (Session.storeHeads store heads).refs.find? projectId ref = some head ↔
      head.key = (projectId, ref) ∧
        (IsLastOfKey RefHead.key heads head ∨
          (store.refs.find? projectId ref = some head ∧
            ∀ other ∈ heads, other.key ≠ (projectId, ref))) := by
  have hHolds := holds_foldl_iff (fun (refs : RefTable) head => head ∈ refs.heads) RefTable.set
    (fun refs _ _ => mem_setHead_iff refs.distinct) store.refs heads head
  rw [storeHeads_eq, RefTable.find?_eq_some_iff, RefTable.find?_eq_some_iff, hHolds]
  by_cases hKey : head.key = (projectId, ref)
  · simp only [hKey, and_true, true_and]
  · simp only [hKey, and_false, false_and]

end Store

/-- What has come of storing the heads that lookups for a project have found. -/
structure Store.HoldsFound (before : Store) (projectId : Nat)
    (results : List (String × HeadResult)) (after : Store) : Prop where
  /-- No row changes but heads of refs. -/
  others : { after with refs := before.refs } = before
  /-- The refs of other projects, and those that no answer names, keep their heads. -/
  unnamed : ∀ other ref,
    (other = projectId → ∀ head ∈ Session.foundHeads results, head.ref ≠ ref) →
      after.refs.find? other ref = before.refs.find? other ref
  /-- The last head that has a name is stored under it. -/
  named : ∀ earlier branch head later, results = earlier ++ (branch, .ok (some head)) :: later →
    (∀ other ∈ Session.foundHeads later, other.ref ≠ head.ref) →
      after.refs.find? projectId head.ref = some head

/-- Nothing but the requested branches of a project has changed, and each of them whose last
lookup found a head has its commit. -/
structure Store.HoldsRequested (before : Store) (projectId : Nat) (branches : List String)
    (results : List (String × HeadResult)) (after : Store) : Prop where
  others : { after with refs := before.refs } = before
  unrequested : ∀ other ref, (other = projectId → ref ∉ branches) →
    after.refs.find? other ref = before.refs.find? other ref
  requested : ∀ earlier branch head later,
    results = earlier ++ (branch, .ok (some head)) :: later → branch ∉ later.map (·.1) →
      (after.refs.find? projectId branch).map (·.sha) = some head.sha

namespace Store

theorem holdsFound_storeHeads (store : Store) {projectId : Nat}
    {results : List (String × HeadResult)}
    (hProject : ∀ head ∈ Session.foundHeads results, head.projectId = projectId) :
    store.HoldsFound projectId results
      (Session.storeHeads store (Session.foundHeads results)) where
  others := by rw [storeHeads_eq]
  unnamed other ref hUnnamed := by
    have hKeys : ∀ head ∈ Session.foundHeads results, head.key ≠ (other, ref) := by
      intro head hHead hKey
      have hOther : head.projectId = other := congrArg Prod.fst hKey
      exact hUnnamed (hOther.symm.trans (hProject head hHead)) head hHead (congrArg Prod.snd hKey)
    ext head
    rw [refs_storeHeads_eq_some_iff]
    constructor
    · rintro ⟨hKey, hLast | ⟨hHeld, -⟩⟩
      · obtain ⟨earlier, later, hHeads, -⟩ := hLast
        exact absurd hKey (hKeys head (by simp [hHeads]))
      · exact hHeld
    · intro hHeld
      exact ⟨((store.refs.find?_eq_some_iff other ref head).mp hHeld).2, .inr ⟨hHeld, hKeys⟩⟩
  named earlier branch head later hResults hLater := by
    subst hResults
    rw [Session.foundHeads_split] at hProject ⊢
    have hOwn : head.projectId = projectId := hProject head (by simp)
    refine (refs_storeHeads_eq_some_iff ..).mpr ⟨by rw [← hOwn]; rfl, .inl ⟨_, _, rfl, ?_⟩⟩
    exact fun other hOther hKey => hLater other hOther (congrArg Prod.snd hKey)

/-- Where the answers have the names that were asked for, what was asked for has changed. -/
theorem HoldsFound.holdsRequested {before after : Store} {projectId : Nat}
    {branches : List String} {results : List (String × HeadResult)}
    (h : before.HoldsFound projectId results after) (hBranches : results.map (·.1) = branches)
    (hNames : ∀ branch head, (branch, .ok (some head)) ∈ results → head.ref = branch) :
    before.HoldsRequested projectId branches results after where
  others := h.others
  unrequested other ref hRef := by
    refine h.unnamed other ref fun hOther head hHead hName => hRef hOther ?_
    obtain ⟨branch, hMem⟩ := Session.mem_foundHeads_iff.mp hHead
    rw [← hName, hNames branch head hMem, ← hBranches]
    exact List.mem_map_of_mem hMem
  requested earlier branch head later hResults hLater := by
    have hName : head.ref = branch := hNames branch head (by simp [hResults])
    have hStored := h.named earlier branch head later hResults fun other hOther hSame => by
      obtain ⟨name, hMem⟩ := Session.mem_foundHeads_iff.mp hOther
      have hOtherName : other.ref = name := hNames name other (by simp [hResults, hMem])
      rw [← hName, ← hSame, hOtherName] at hLater
      exact hLater (List.mem_map_of_mem hMem)
    rw [← hName, hStored, Option.map_some]

end Store

/-! ## Synchronization -/

namespace Session

variable {session : Session} {projectId : Nat} {refs : List String} {token : Option String}

/-- The server of a session, asked with a token of its own or with the configured one. -/
def server (session : Session) (token : Option String) : Except UpkeepError BranchServer :=
  let remote := session.workspace.configuration.remote
  BranchServer.ofText remote.baseUrl ((token <|> remote.token).map Token.mk)

theorem store_conclude (session : Session) (world : World) (json : Value) (screen : String) :
    (session.conclude world json screen).store = world.store := by
  unfold conclude
  split <;> rfl

theorem syncHeads_of_missing (h : session.store.projects.find? projectId = none) :
    session.syncHeads projectId refs token =
      session.fail s!"Project {projectId} not found" session.store := by
  unfold syncHeads
  rw [h]

theorem syncHeads_of_unreached {project : Project} {error : UpkeepError}
    (hProject : session.store.projects.find? projectId = some project)
    (hServer : session.server token = .error error) :
    session.syncHeads projectId refs token = session.fail error.message session.store := by
  unfold server at hServer
  simp only [syncHeads, hProject, hServer]

theorem syncHeads_of_reached {project : Project} {reached : BranchServer}
    (hProject : session.store.projects.find? projectId = some project)
    (hServer : session.server token = .ok reached) :
    ∃ results, (results, (session.syncHeads projectId refs token).requests) =
        reached.branchHeads session.surroundings.network projectId project.path refs ∧
      (session.syncHeads projectId refs token).store =
        storeHeads session.store (foundHeads results) := by
  obtain rfl : project.id = projectId :=
    ((session.store.projects.find?_eq_some_iff projectId project).mp hProject).2
  unfold server at hServer
  simp only [syncHeads, hProject, hServer]
  exact ⟨_, rfl, store_conclude ..⟩

end Session

/-- A synchronization without its project or its server fails and changes nothing.  Any other
one looks up the branches and stores each head that was found under the name in the answer,
which is one to a request for the branch; if the answers have the names that were asked for,
only the requested branches have changed. -/
theorem synced_heads_have_answered_names (session : Session) (projectId : Nat)
    (refs : List String) (token : Option String) :
    let after := session.syncHeads projectId refs token
    let network := session.surroundings.network
    (session.store.projects.find? projectId = none ∨
        (∃ error, session.server token = .error error) →
      ∃ message, after = session.fail message session.store) ∧
    ∀ project server, session.store.projects.find? projectId = some project →
      session.server token = .ok server →
      ∃ results, (results, after.requests) =
          server.branchHeads network projectId project.path refs ∧
        results.map (·.1) = refs ∧
        (∀ branch head, (branch, .ok (some head)) ∈ results →
          server.HasDescribed network projectId project.path branch head) ∧
        session.store.HoldsFound projectId results after.store ∧
        ((∀ branch head, (branch, .ok (some head)) ∈ results → head.ref = branch) →
          session.store.HoldsRequested projectId refs results after.store) := by
  intro after network
  refine ⟨fun hUnserved => ?_, fun project server hProject hServer => ?_⟩
  · cases hProject : session.store.projects.find? projectId with
    | none => exact ⟨_, Session.syncHeads_of_missing hProject⟩
    | some project =>
        obtain ⟨error, hServer⟩ := hUnserved.resolve_left (by simp [hProject])
        exact ⟨_, Session.syncHeads_of_unreached hProject hServer⟩
  · obtain ⟨results, hResults, hStore⟩ : ∃ results, (results, after.requests) =
          server.branchHeads network projectId project.path refs ∧
        after.store = Session.storeHeads session.store (Session.foundHeads results) :=
      Session.syncHeads_of_reached hProject hServer
    have hFinds := server.mayFind_branchHeads network projectId project.path refs
    rw [← hResults] at hFinds
    have hBranches : results.map (·.1) = refs := hFinds.exists_log.1
    have hDescribed : ∀ branch head, (branch, .ok (some head)) ∈ results →
        server.HasDescribed network projectId project.path branch head :=
      fun branch head hFound => hFinds.hasDescribed hFound
    have hOwn : ∀ head ∈ Session.foundHeads results, head.projectId = projectId := by
      intro head hHead
      obtain ⟨branch, hFound⟩ := Session.mem_foundHeads_iff.mp hHead
      obtain ⟨request, earlier, -, hSettles⟩ := hDescribed branch head hFound
      exact hSettles.projectId_eq
    have hHolds : session.store.HoldsFound projectId results after.store :=
      hStore ▸ session.store.holdsFound_storeHeads hOwn
    exact ⟨results, hResults, hBranches, hDescribed, hHolds, hHolds.holdsRequested hBranches⟩

/-- A project with two refs. -/
def twoRefsStore : Store :=
  Store.ofSnapshot { Snapshot.empty with
    projects := [⟨1, "group/project", true, none, []⟩]
    refs := [⟨1, "main", "s1", ""⟩, ⟨1, "release", "r1", ""⟩] }

/-- Every branch is described under one name, with the commit `s9`. -/
def renamingNetwork (name : String) : Network := fun _ _ =>
  .answered 200
    (Json.compact (.table [("name", .text name), ("commit", .table [("id", .text "s9")])]))

/-- A session for this project with that network. -/
def renamingSession (name : String) : Session where
  surroundings := ⟨.standard, "/data", ⟨0, 0⟩, renamingNetwork name, 0⟩
  invocation := ⟨.syncHeads 1 ["main"] none, none, some "state.json", false, false⟩
  workspace := ⟨.standard, "state.json", World.start twoRefsStore ⟨0, 0⟩⟩
  directory := ⟨["work"], [], []⟩

/-- The server of every such session. -/
def renamingServer : BranchServer :=
  ⟨⟨"https", "gitlab.com", none, ["api".toList, "v4".toList]⟩, none⟩

theorem server_renamingSession (name : String) :
    (renamingSession name).server none = .ok renamingServer := by
  have hAddress : WebAddress.ofText "https://gitlab.com" =
      .ok ⟨"https", "gitlab.com", none, [[]]⟩ := by
    decide +kernel
  show BranchServer.ofText "https://gitlab.com" none = _
  rw [BranchServer.ofText, hAddress]
  rfl

/-- Where `main` is described under its own name, it is what changes. -/
theorem synced_heads_have_answered_names_main :
    let session := renamingSession "main"
    let results := [("main", .ok (some ⟨1, "main", "s9", ""⟩))]
    (∃ project, session.store.projects.find? 1 = some project) ∧
      session.server none = .ok renamingServer ∧
      (renamingServer.branchHeads session.surroundings.network 1 "group/project" ["main"]).1 =
        results ∧
      session.store.HoldsFound 1 results (session.syncHeads 1 ["main"] none).store ∧
      session.store.HoldsRequested 1 ["main"] results
        (session.syncHeads 1 ["main"] none).store := by
  intro session results
  have hProject : session.store.projects.find? 1 =
      some ⟨1, "group/project", true, none, []⟩ := by
    decide +kernel
  have hServer : session.server none = .ok renamingServer := server_renamingSession "main"
  have hFound : (renamingServer.branchHeads session.surroundings.network 1 "group/project"
      ["main"]).1 = results := by
    decide +kernel
  obtain ⟨found, hResults, -, -, hHolds, hRequested⟩ :=
    (synced_heads_have_answered_names session 1 ["main"] none).2 _ _ hProject hServer
  obtain rfl : found = results := (congrArg Prod.fst hResults).trans hFound
  refine ⟨⟨_, hProject⟩, hServer, hFound, hHolds, hRequested fun branch head hMem => ?_⟩
  obtain ⟨rfl, hHead⟩ := Prod.mk.inj (List.mem_singleton.mp hMem)
  rw [Option.some.inj (Except.ok.inj hHead)]

/-- Only `main` is asked for.  The server describes `release`, whose head is replaced, while the
one of `main` stays as it was. -/
theorem answered_name_replaces_another_head :
    let session := renamingSession "release"
    let after := session.syncHeads 1 ["main"] none
    let results := [("main", .ok (some ⟨1, "release", "s9", ""⟩))]
    session.server none = .ok renamingServer ∧
      (renamingServer.branchHeads session.surroundings.network 1 "group/project" ["main"]).1 =
        results ∧
      session.store.refs.find? 1 "release" = some ⟨1, "release", "r1", ""⟩ ∧
      after.store.refs.find? 1 "release" = some ⟨1, "release", "s9", ""⟩ ∧
      after.store.refs.find? 1 "main" = some ⟨1, "main", "s1", ""⟩ ∧
      ¬session.store.HoldsRequested 1 ["main"] results after.store := by
  intro session after results
  have hBefore : session.store.refs.find? 1 "release" = some ⟨1, "release", "r1", ""⟩ := by
    decide +kernel
  have hAfter : after.store.refs.find? 1 "release" = some ⟨1, "release", "s9", ""⟩ := by
    decide +kernel
  refine ⟨server_renamingSession "release", by decide +kernel, hBefore, hAfter,
    by decide +kernel, fun hHolds => ?_⟩
  have hSame := hHolds.unrequested 1 "release" fun _ => by decide
  rw [hBefore, hAfter] at hSame
  exact absurd hSame (by decide)

end PipelineUpkeep

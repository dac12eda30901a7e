import PipelineUpkeep.Data.Decode
import PipelineUpkeep.Data.Json.Reader
import PipelineUpkeep.Error
import PipelineUpkeep.Pipeline.Rows
import PipelineUpkeep.Remote.Exchange
/-!
# Heads of branches

The head of a branch is asked of the server.  A request that found no connection
or an overloaded or failing server is made again, at most five times; any other
reply settles the matter at once.  Several branches are asked for side by side,
round by round, each in its turn.
-/

namespace PipelineUpkeep

open Data

/-- A server with branches, and the token it is asked with. -/
structure BranchServer where
  address : WebAddress
  token : Option Token

/-- What is known about a branch in the end; a branch may not exist. -/
abbrev HeadResult := Except UpkeepError (Option RefHead)

namespace BranchServer

/-- The server at an address, below which its interface lies. -/
def ofText (baseUrl : String) (token : Option Token) : Except UpkeepError BranchServer :=
  match WebAddress.ofText baseUrl with
  | .error error => .error (.config error.message)
  | .ok address => .ok ⟨address.below ["api", "v4"], token⟩

/-- The address of a branch. -/
def branchAddress (server : BranchServer) (projectPath branch : String) : WebAddress :=
  { server.address with
    path := ["projects", projectPath, "repository", "branches", branch].foldl pushSegment
      server.address.path }

/-- The request for a branch, if one can be sent. -/
def request? (server : BranchServer) (projectPath branch : String) : Option WebRequest :=
  if ["http", "https"].contains server.address.scheme && server.token.all Token.isSendable then
    some ⟨server.branchAddress projectPath branch, server.token.map Token.authorization⟩
  else none

end BranchServer

/-- The commit at the head of a branch: its identifier and its message. -/
def decodeCommit : Decoder (String × String) := fun format value => do
  match ← Decode.fields ["id", "message"] format value with
  | [id, message] =>
      some (← Decode.required Decode.string format id,
        ← Decode.optional "" Decode.string format message)
  | _ => none

/-- The head of a branch as the server describes it. -/
def decodeBranch (projectId : Nat) : Decoder RefHead := fun format value => do
  match ← Decode.fields ["name", "commit"] format value with
  | [name, commit] =>
      let name ← Decode.required Decode.string format name
      let (sha, message) ← Decode.required decodeCommit format commit
      some ⟨projectId, name, sha, message⟩
  | _ => none

/-- How often a request is made again. -/
def maxRetries : Nat := 5

/-- What follows from a reply. -/
inductive Verdict where
  | settled (result : HeadResult)
  /-- Ask again; the error counts if there is no further request. -/
  | again (error : UpkeepError)

/-- The server is overloaded or has failed. -/
def isPassing (status : Nat) : Bool :=
  status == 429 || (500 ≤ status && status < 600)

/-- Judge a reply. -/
def Reply.verdict (projectId : Nat) : Reply → Verdict
  | refused => .again (.network "no connection")
  | broken => .settled (.error (.network "broken connection"))
  | answered status body =>
      if status = 404 then .settled (.ok none)
      else if isPassing status then .again (.apiAfterRetries status maxRetries)
      else if 200 ≤ status ∧ status < 300 then
        match (Json.read? body).bind (decodeBranch projectId .json) with
        | some head => .settled (.ok (some head))
        | none => .settled (.error (.network "unreadable reply"))
      else .settled (.error (.api status body))

/-- How far the search for one head has come. -/
inductive HeadSearch where
  /-- The request is to be made; `failure` counts if it is not. -/
  | asking (request : WebRequest) (failure : UpkeepError)
  | finished (result : HeadResult)

namespace HeadSearch

/-- Before the first request.  Without a request there is nothing to search. -/
def start (request : Option WebRequest) : HeadSearch :=
  match request with
  | some request => asking request (.network "nothing was sent")
  | none => finished (.error (.network "nothing can be sent"))

/-- Make the request if it is still to be made. -/
def turn (network : Network) (projectId : Nat) (search : HeadSearch) (sent : List WebRequest) :
    HeadSearch × List WebRequest :=
  match search with
  | finished result => (finished result, sent)
  | asking request _ =>
      let (reply, sent) := network.send sent request
      match reply.verdict projectId with
      | .settled result => (finished result, sent)
      | .again error => (asking request error, sent)

/-- Give every search its turn. -/
def round (network : Network) (projectId : Nat) :
    List HeadSearch → List WebRequest → List HeadSearch × List WebRequest
  | [], sent => ([], sent)
  | search :: rest, sent =>
      let (search, sent) := search.turn network projectId sent
      let (rest, sent) := round network projectId rest sent
      (search :: rest, sent)

/-- A number of rounds. -/
def rounds (network : Network) (projectId : Nat) :
    Nat → List HeadSearch → List WebRequest → List HeadSearch × List WebRequest
  | 0, searches, sent => (searches, sent)
  | count + 1, searches, sent =>
      let (searches, sent) := round network projectId searches sent
      rounds network projectId count searches sent

/-- The result if nothing more is asked. -/
def result : HeadSearch → HeadResult
  | asking _ failure => .error failure
  | finished result => result

theorem length_round (network : Network) (projectId : Nat) (searches : List HeadSearch)
    (sent : List WebRequest) :
    (round network projectId searches sent).1.length = searches.length := by
  induction searches generalizing sent with
  | nil => rfl
  | cons search rest ih => simp [round, ih]

theorem length_rounds (network : Network) (projectId count : Nat) (searches : List HeadSearch)
    (sent : List WebRequest) :
    (rounds network projectId count searches sent).1.length = searches.length := by
  induction count generalizing searches sent with
  | zero => rfl
  | succ count ih => simp [rounds, ih, length_round]

end HeadSearch

/-- Ask for the heads of branches, in order; gives each branch with its result, and
the requests that were made. -/
def BranchServer.branchHeads (server : BranchServer) (network : Network) (projectId : Nat)
    (projectPath : String) (branches : List String) :
    List (String × HeadResult) × List WebRequest :=
  let searches := branches.map fun branch => HeadSearch.start (server.request? projectPath branch)
  let (searches, sent) := HeadSearch.rounds network projectId (maxRetries + 1) searches []
  (branches.zip (searches.map HeadSearch.result), sent)

end PipelineUpkeep

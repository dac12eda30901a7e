import PipelineUpkeep.Remote.Address
/-!
# Requests to a server

A request asks a server for a path, perhaps with a token.  What comes of it is up
to the network: nothing is assumed but that the reply depends only on the request
and on how many equal ones were sent before.
-/

namespace PipelineUpkeep

/-- A secret that is shown to nobody but the server. -/
structure Token where
  secret : String
  deriving DecidableEq

namespace Token

/-- What is shown instead of a token. -/
def shown (_ : Token) : String := "Token(***)"

/-- The head line of a request that carries the token. -/
def authorization (token : Token) : String :=
  let isBlank (c : Char) : Bool := c == ' ' || c == '\t'
  String.ofList (Text.dropEndWhile isBlank ("Bearer " ++ token.secret).toList)

/-- A head line cannot hold control characters other than tabs. -/
def isSendable (token : Token) : Bool :=
  token.secret.toList.all fun c => c == '\t' || (0x20 ≤ c.toNat && c.toNat != 0x7F)

end Token

structure WebRequest where
  address : WebAddress
  authorization : Option String
  deriving DecidableEq, Repr

/-- How every request is made. -/
def WebRequest.method : String := "GET"

/-- The name under which every request is made. -/
def WebRequest.userAgent : String := "ci-autocancel/0.1.0"

/-- What comes of a request. -/
inductive Reply where
  /-- There was no connection, or it took too long. -/
  | refused
  /-- The connection broke, or what came is no reply. -/
  | broken
  | answered (status : Nat) (body : String)
  deriving DecidableEq, Repr

/-- The reply with a status line and a body.  A status has three digits, and those
of two kinds of reply have no body. -/
def Reply.ofStatus (status : Nat) (body : String) : Reply :=
  if status < 100 then broken
  else if status = 204 ∨ status = 304 then answered status ""
  else answered status body

/-- The reply to a request before which a number of equal ones were sent. -/
abbrev Network := WebRequest → Nat → Reply

/-- Send a request; gives the reply and all requests so far. -/
def Network.send (network : Network) (sent : List WebRequest) (request : WebRequest) :
    Reply × List WebRequest :=
  (network request (sent.count request), sent ++ [request])

end PipelineUpkeep

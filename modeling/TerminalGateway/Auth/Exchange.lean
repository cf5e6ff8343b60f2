import TerminalGateway.Event
import TerminalGateway.Failure.Transport

/-!
How a client shows a server who it is: requests, answers to the server's questions, and what the
server says to each of them. A server may take into account all that it was sent before.
-/

namespace TerminalGateway.Auth

inductive Method
  | none
  | password
  | publicKey
  | hostBased
  | keyboardInteractive
  deriving DecidableEq, Repr

structure PrivateKey where
  algorithm : String
  deriving DecidableEq, Repr

abbrev KeyReader := String → Option String → Option PrivateKey

inductive Request
  | none
  | publicKey (key : PrivateKey)
  | password (password : String)
  | keyboardInteractive
  | answers (answers : List String)
  deriving DecidableEq, Repr

/-- What a server decides. A server that refuses names the methods that it would go on with; it
may do so although it accepted what it was sent as one part of several. -/
inductive Verdict
  | accepted
  | refused (remaining : List Method) (partly : Bool)
  deriving DecidableEq, Repr

inductive Reply
  | verdict (v : Verdict)
  | questions (p : InteractivePrompt)
  deriving DecidableEq, Repr

inductive Lapse
  | broken (e : TransportError)
  /-- The server is silent until the client gives up. -/
  | silent
  deriving DecidableEq, Repr

/-- A server, as far as authentication goes: what it says after all that it was sent, the request
to answer being the last one. Only in a dialogue it may ask something. -/
structure Server where
  decide : List Request → Except Lapse Verdict
  converse : List Request → Except Lapse Reply

structure Turn where
  request : Request
  reply : Except Lapse Reply
  deriving DecidableEq

structure Exchange where
  turns : List Turn := []
  forwarded : List InteractivePrompt := []
  deriving DecidableEq

namespace Exchange

def requests (x : Exchange) : List Request := x.turns.map (·.request)

def note (x : Exchange) (request : Request) (reply : Except Lapse Reply) : Exchange :=
  { x with turns := x.turns ++ [⟨request, reply⟩] }

@[simp] theorem requests_note (x : Exchange) (r : Request) (reply : Except Lapse Reply) :
    (x.note r reply).requests = x.requests ++ [r] := by
  simp [requests, note]

/-- Sends a request that a server decides at once. -/
def ask (x : Exchange) (server : Server) (request : Request) : Except Lapse Verdict × Exchange :=
  let reply := server.decide (x.requests ++ [request])
  (reply, x.note request (reply.map .verdict))

/-- Sends a part of a dialogue. -/
def say (x : Exchange) (server : Server) (request : Request) : Except Lapse Reply × Exchange :=
  let reply := server.converse (x.requests ++ [request])
  (reply, x.note request reply)

def forward (x : Exchange) (p : InteractivePrompt) : Exchange :=
  { x with forwarded := x.forwarded ++ [p] }

end Exchange

end TerminalGateway.Auth

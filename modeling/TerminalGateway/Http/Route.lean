import TerminalGateway.Drain.Coordinator
import TerminalGateway.Http.Query
import TerminalGateway.Http.Target
import TerminalGateway.Json.Writer

/-!
What the gateway answers to a request. One path leads to a session, the other tells how the
gateway is; only the second one is still answered during a drain.
-/

namespace TerminalGateway.Http

structure Request where
  method : String
  target : Target
  /-- Whether the headers ask for a WebSocket in the right way. -/
  handshake : Bool
  deriving DecidableEq, Repr

inductive Response
  | health (draining : Bool) (live : Nat) (headOnly : Bool)
  | session (query : SessionQuery)
  | drained
  | badRequest
  | methodNotAllowed
  | notFound
  deriving DecidableEq, Repr

namespace Response

def status : Response → Nat
  | .health .. => 200
  | .session _ => 101
  | .drained => 503
  | .badRequest => 400
  | .methodNotAllowed => 405
  | .notFound => 404

def contentType? : Response → Option String
  | .health .. => some "application/json; charset=utf-8"
  | _ => none

def healthText (draining : Bool) (live : Nat) : String :=
  Json.Value.text (.object [("status", .string (if draining then "draining" else "ok")),
    ("sessions", .number (.integer live))])

def body? : Response → Option String
  | .health draining live headOnly =>
      some (if headOnly then "" else healthText draining live)
  | .drained => some "Server is shutting down"
  | _ => none

end Response

namespace Request

/-- The name of a method: one word, of letters, digits and the signs that words may have. -/
def isMethod (text : String) : Bool :=
  !text.isEmpty && text.toList.all fun c =>
    c.isAlphanum || "!#$%&\x27*+-.^_\x60|~".toList.contains c

def ofTexts? (method target : String) (handshake : Bool) : Option Request := do
  let target ← Target.ofText? target
  if isMethod method then some ⟨method, target, handshake⟩ else none

/-- A request for the headers only is one for the content whose body is not sent. -/
def isRead (r : Request) : Bool := r.method = "GET" || r.method = "HEAD"

/-- A request for a session, outside a drain. -/
def openSession (r : Request) : Response :=
  if !r.isRead then .methodNotAllowed
  else if !r.handshake then .badRequest
  else
    match SessionQuery.ofText? r.target.query with
    | some q => .session q
    | none => .badRequest

def respond (c : Drain.Coordinator) (r : Request) : Response :=
  if r.target.path = "/ssh/socket" then
    if c.board.draining then .drained else r.openSession
  else if r.target.path = "/healthz" then
    if r.isRead then .health c.board.draining c.board.live (r.method = "HEAD")
    else .methodNotAllowed
  else .notFound

end Request

end TerminalGateway.Http

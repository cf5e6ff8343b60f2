import TerminalGateway.Config
import TerminalGateway.Message.Rejection
import TerminalGateway.Session.Remote

/-!
A session: one client, its connection to a server, and at most one stream on that connection. The
record tells in order all that a session did.
-/

namespace TerminalGateway

inductive Phase
  | idle
  | authenticating
  | connected
  | streaming
  | closing
  | closed
  deriving DecidableEq, Repr

inductive StreamKind
  | shell
  /-- A command, with the time at which it is cut off. -/
  | exec (deadline : Option Nat)
  deriving DecidableEq, Repr

/-- An open stream and what it told so far of the end of its program. -/
structure OpenStream where
  kind : StreamKind
  exitCode : Option Nat := none
  exitSignal : Option String := none
  deriving DecidableEq, Repr

def OpenStream.deadline? (s : OpenStream) : Option Nat :=
  match s.kind with
  | .shell => none
  | .exec deadline => deadline

/-- A message of a client, or why it is none. -/
abbrev Inbound := Except Rejection ClientMessage

structure Attempt where
  credentials : Credentials
  abandoned : Bool
  deriving DecidableEq, Repr

/-- What a session asks of its server side. -/
inductive Call
  | connect (credentials : Credentials)
  | shell (terminal : Terminal) (env : Environment.Pairs)
  | exec (command : String) (terminal : Option Terminal) (env : Environment.Pairs)
  | write (bytes : Octets)
  | resize (dimensions : Dimensions)
  | closeStream
  | hangUp
  deriving DecidableEq, Repr

inductive Entry
  | handled (message : Inbound)
  /-- Checked a target by the addresses that were found for it. -/
  | vetted (credentials : Credentials) (found : Except String (List Net.Address))
  | called (call : Call) (outcome : Outcome)
  | settled (outcome : Outcome)
  | sent (event : ServerEvent)
  /-- Took something off a stream, or learned that the stream will deliver nothing more. -/
  | received (stream : Nat) (event : Option StreamEvent)
  | expired
  | retargeted (label : String)
  | socketClosed
  | left
  deriving DecidableEq

structure Session (ρ : Type) where
  config : Config
  remote : ρ
  phase : Phase := .idle
  /-- The credentials of the connection, or of the last attempt at one. -/
  credentials : Option Credentials := none
  /-- Credentials for authentication requests without a secret. -/
  cached : Option Credentials := none
  term : String
  dimensions : Dimensions := .standard
  permissions : Permissions
  firstError : Option String := none
  reauthOffered : Bool := false
  env : Environment.Pairs := []
  everConnected : Bool := false
  stream : Option OpenStream := none
  /-- The number of the stream that the session listens to. -/
  receiver : Option Nat := none
  opened : Nat := 0
  registered : Bool := true
  /-- Messages that came during an attempt to connect. -/
  backlog : List Inbound := []
  /-- Credentials whose host is being looked up. -/
  lookup : Option Credentials := none
  attempt : Option Attempt := none
  /-- The time since the start, in milliseconds. -/
  clock : Nat := 0
  record : List Entry := []

namespace Session

variable {ρ : Type}

def start (config : Config) (remote : ρ) (cached : Option Credentials)
    (env : Environment.Pairs) : Session ρ :=
  { config, remote, cached, env, term := config.ssh.term, permissions := config.permissions }

def isClosing (s : Session ρ) : Bool := s.phase = .closing || s.phase = .closed

def isListening (s : Session ρ) : Bool :=
  !s.isClosing && s.lookup.isNone && s.attempt.isNone && s.backlog.isEmpty

def isHearing (s : Session ρ) : Bool :=
  !s.isClosing && s.lookup.isNone &&
    match s.attempt with
    | some a => !a.abandoned
    | none => s.backlog.isEmpty

def isDue (s : Session ρ) : Bool := (s.stream.bind (·.deadline?)).any (· ≤ s.clock)

def note (s : Session ρ) (e : Entry) : Session ρ := { s with record := s.record ++ [e] }

/-- An event goes to the client. Whether it arrives makes no difference to the session. -/
def emit (s : Session ρ) (e : ServerEvent) : Session ρ := s.note (.sent e)

def dropStream (s : Session ρ) : Session ρ := { s with stream := none, receiver := none }

@[simp] theorem record_note (s : Session ρ) (e : Entry) : (s.note e).record = s.record ++ [e] :=
  rfl

@[simp] theorem record_emit (s : Session ρ) (e : ServerEvent) :
    (s.emit e).record = s.record ++ [.sent e] := rfl

@[simp] theorem record_dropStream (s : Session ρ) : s.dropStream.record = s.record := rfl

@[simp] theorem isClosing_note (s : Session ρ) (e : Entry) :
    (s.note e).isClosing = s.isClosing := rfl

end Session

end TerminalGateway

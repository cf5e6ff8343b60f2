import TerminalGateway.Session.Remote

/-!
The relay of a channel's messages as the events of a stream. It takes one message after another and
offers the event of each until there is room for it. It stops after the first message that ends the
channel, or when nobody listens to what it offers, or when it is cancelled, of which it takes notice
only while it waits for a message.
-/

namespace TerminalGateway

/-- A signal that ended a program. Those without a name of their own are told as the server told
them. -/
inductive Signal
  | abrt
  | alrm
  | fpe
  | hup
  | ill
  | int
  | kill
  | pipe
  | quit
  | segv
  | term
  | usr1
  | custom (name : String)
  deriving DecidableEq, Repr

namespace Signal

def ofName : String → Signal
  | "ABRT" => abrt
  | "ALRM" => alrm
  | "FPE" => fpe
  | "HUP" => hup
  | "ILL" => ill
  | "INT" => int
  | "KILL" => kill
  | "PIPE" => pipe
  | "QUIT" => quit
  | "SEGV" => segv
  | "TERM" => term
  | "USR1" => usr1
  | name => custom name

def label : Signal → String
  | abrt => "ABRT"
  | alrm => "ALRM"
  | fpe => "FPE"
  | hup => "HUP"
  | ill => "ILL"
  | int => "INT"
  | kill => "KILL"
  | pipe => "PIPE"
  | quit => "QUIT"
  | segv => "SEGV"
  | term => "TERM"
  | usr1 => "USR1"
  | custom name => name

end Signal

inductive ChannelMessage
  | data (bytes : Octets)
  /-- Output of some other kind, such as that of errors. -/
  | extendedData (bytes : Octets) (kind : Nat)
  | exitStatus (code : Nat)
  | exitSignal (signal : Signal)
  | close
  | failure
  /-- A message of which the stream takes no notice. -/
  | other
  deriving DecidableEq, Repr

inductive Relayed
  | skipped
  | event (e : StreamEvent)
  | last (e : StreamEvent)
  deriving DecidableEq, Repr

/-- What becomes of the next message of a channel, or of the channel's end without one. -/
def Relayed.of : Option ChannelMessage → Relayed
  | some (.data bytes) => .event (.data bytes)
  | some (.extendedData bytes _) => .event (.extendedData bytes)
  | some (.exitStatus code) => .event (.exitStatus code)
  | some (.exitSignal signal) => .event (.exitSignal signal.label)
  | some .close => .last .closed
  | some .failure => .last (.failed (.stream "Channel request rejected by server"))
  | some .other => .skipped
  | none => .last (.failed ⟨some "ECONNRESET", some .clientSocket, "SSH connection lost"⟩)

namespace Relay

inductive Stage
  | listening
  /-- It has an event to hand over, and stops after that if the event is the last. -/
  | offering (e : StreamEvent) (isLast : Bool)
  | stopped
  deriving DecidableEq, Repr

end Relay

structure Relay where
  inbox : List ChannelMessage
  stage : Relay.Stage := .listening
  sent : List StreamEvent := []
  /-- How many of them were taken by the one who listens to the stream. -/
  taken : Nat := 0
  cancelled : Bool := false
  /-- Nobody listens to the stream any more. -/
  abandoned : Bool := false
  deriving DecidableEq, Repr

namespace Relay

inductive Turn
  | read
  | hand
  | take
  | cancel
  /-- The relay takes notice that it was cancelled. -/
  | heed
  | abandon
  deriving DecidableEq, Repr

/-- How many events may wait to be taken. -/
def capacity : Nat := 256

def hasRoom (r : Relay) : Bool := r.sent.length < r.taken + capacity

def read (r : Relay) : Relay :=
  if r.stage ≠ .listening then r
  else
    let r' := { r with inbox := r.inbox.tail }
    match Relayed.of r.inbox.head? with
    | .skipped => r'
    | .event e => { r' with stage := .offering e false }
    | .last e => { r' with stage := .offering e true }

def hand (r : Relay) : Relay :=
  match r.stage with
  | .offering e isLast =>
      if r.abandoned then { r with stage := .stopped }
      else if r.hasRoom then
        { r with sent := r.sent ++ [e], stage := if isLast then .stopped else .listening }
      else r
  | .listening | .stopped => r

def take (r : Relay) : Relay :=
  if r.taken < r.sent.length ∧ !r.abandoned then { r with taken := r.taken + 1 } else r

def heed (r : Relay) : Relay :=
  if r.cancelled ∧ r.stage = .listening then { r with stage := .stopped } else r

def step (r : Relay) : Turn → Relay
  | .read => r.read
  | .hand => r.hand
  | .take => r.take
  | .cancel => { r with cancelled := true }
  | .heed => r.heed
  | .abandon => { r with abandoned := true }

def run (r : Relay) (ts : List Turn) : Relay := ts.foldl step r

/-- The relay after some turns of an endless schedule. -/
def after (r : Relay) (schedule : Nat → Turn) : Nat → Relay
  | 0 => r
  | n + 1 => (r.after schedule n).step (schedule n)

def start (messages : List ChannelMessage) : Relay := { inbox := messages }

end Relay

end TerminalGateway

import TerminalGateway.Session.Step

/-!
A session with all that it listens to. Each source gives what it has, one thing after another, and
only while the session listens to it. A client that has no more messages goes away, and a stream
that has no more to deliver tells so.
-/

namespace TerminalGateway

inductive Turn
  | client
  | stream
  | countdown
  | prompt
  | lookup (found : Except String (List Net.Address))
  | settle
  | resume
  | expire
  | elapse
  deriving DecidableEq

structure Sources (ρ : Type) where
  session : Session ρ
  /-- What the client sends before it goes away. -/
  messages : List Inbound := []
  /-- What each stream delivers before it ends, by the number of the stream. -/
  streams : Nat → List StreamEvent := fun _ => []
  countdown : List (Drain.Reception Nat) := []
  prompts : List InteractivePrompt := []

namespace Sources

variable {ρ : Type}

def isConnecting (k : Sources ρ) : Bool :=
  !k.session.isClosing && k.session.lookup.isNone && k.session.attempt.isSome

/-- What the session hears at a turn, if it listens and there is something to hear. -/
def heard? (k : Sources ρ) : Turn → Option Session.Stimulus
  | .client =>
      if k.session.isHearing then some (k.messages.head?.elim .departed .message) else none
  | .stream =>
      if k.session.isListening then
        k.session.receiver.map fun n => .stream (k.streams n).head?
      else none
  | .countdown => if k.session.isListening then k.countdown.head?.map .countdown else none
  | .prompt => if k.isConnecting then k.prompts.head?.map .prompt else none
  | .lookup found =>
      if !k.session.isClosing && k.session.lookup.isSome then some (.resolved found) else none
  | .settle => if k.isConnecting then some .settle else none
  | .resume =>
      if !k.session.isClosing && k.session.lookup.isNone && k.session.attempt.isNone &&
        !k.session.backlog.isEmpty
      then some .resume else none
  | .expire => if k.session.isListening && k.session.isDue then some .expire else none
  | .elapse => some .elapse

def spent (k : Sources ρ) : Turn → Sources ρ
  | .client => { k with messages := k.messages.tail }
  | .stream =>
      { k with
        streams := fun n =>
          if k.session.receiver = some n then (k.streams n).tail else k.streams n }
  | .countdown => { k with countdown := k.countdown.tail }
  | .prompt => { k with prompts := k.prompts.tail }
  | .lookup _ | .settle | .resume | .expire | .elapse => k

variable [Remote ρ]

def step (k : Sources ρ) (t : Turn) : Sources ρ :=
  match k.heard? t with
  | some σ => { k.spent t with session := k.session.step σ }
  | none => k

/-- The session and its sources after some turns of an endless schedule. -/
def after (k : Sources ρ) (schedule : Nat → Turn) : Nat → Sources ρ
  | 0 => k
  | n + 1 => (k.after schedule n).step (schedule n)

end Sources

end TerminalGateway

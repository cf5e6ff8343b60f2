import TerminalGateway.Http.Frame
import TerminalGateway.Session.Step

/-!
A session at its socket. Frames wait there until the session takes the next message, which it does
only while it listens to its client; everything else happens to it as to any session.
-/

namespace TerminalGateway.Http

/-- What is next on a socket: a message, or that the client has gone; and what is left after it. -/
def Frame.next : List (Option Frame) → Session.Stimulus × List (Option Frame)
  | [] => (.departed, [])
  | none :: rest => (.departed, none :: rest)
  | some .close :: rest => (.departed, some .close :: rest)
  | some f :: rest =>
      match f.message? with
      | some m => (.message m, rest)
      | none => next rest

inductive Occasion
  | read
  /-- Anything else happens. What the client does reaches a session through its socket only. -/
  | other (σ : Session.Stimulus)
  deriving DecidableEq

structure Socket (ρ : Type) where
  session : Session ρ
  unread : List (Option Frame)

namespace Socket

variable {ρ : Type}

def told (k : Socket ρ) : Occasion → Option Session.Stimulus
  | .read => if k.session.isHearing then some (Frame.next k.unread).1 else none
  | .other (.message _) | .other .departed => none
  | .other σ => some σ

def left (k : Socket ρ) : Occasion → List (Option Frame)
  | .read => if k.session.isHearing then (Frame.next k.unread).2 else k.unread
  | .other _ => k.unread

variable [Remote ρ]

def step (k : Socket ρ) (o : Occasion) : Socket ρ where
  session := (k.told o).elim k.session k.session.step
  unread := k.left o

def after (k : Socket ρ) (schedule : Nat → Occasion) : Nat → Socket ρ
  | 0 => k
  | n + 1 => (k.after schedule n).step (schedule n)

end Socket

end TerminalGateway.Http

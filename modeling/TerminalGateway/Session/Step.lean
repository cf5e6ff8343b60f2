import TerminalGateway.Drain.Broadcast
import TerminalGateway.Session.Handlers

/-!
What can happen to a session, and when it does something about it. While a host is looked up it
listens to nothing else. While it connects it listens to its client and its server only, and keeps
messages for later; those it then handles before it listens to anything else. A session that has
ended listens to nothing. What a session does not listen to stays outside and changes nothing.
-/

namespace TerminalGateway.Session

inductive Stimulus
  | message (m : Inbound)
  | departed
  /-- The stream delivers something, or will deliver nothing more. -/
  | stream (e : Option StreamEvent)
  | countdown (r : Drain.Reception Nat)
  | resolved (found : Except String (List Net.Address))
  | prompt (p : InteractivePrompt)
  | settle
  /-- The first message kept for later gets its turn. -/
  | resume
  | expire
  /-- A millisecond passes. -/
  | elapse
  deriving DecidableEq

variable {ρ : Type} [Remote ρ]

def stepLookingUp (s : Session ρ) (c : Credentials) : Stimulus → Session ρ
  | .resolved found => s.onResolved c found
  | _ => s

def stepConnecting (s : Session ρ) (a : Attempt) : Stimulus → Session ρ
  | .message m => if a.abandoned then s else { s with backlog := s.backlog ++ [m] }
  | .departed => { s with attempt := some { a with abandoned := true } }
  | .prompt p => s.emit (.keyboardInteractive p)
  | .settle => s.onSettled a
  | _ => s

def stepListening (s : Session ρ) : Stimulus → Session ρ
  | .message m => s.handle m
  | .departed => s.teardown
  | .stream e =>
      match s.receiver with
      | some n => (s.note (.received n e)).onStreamEvent e
      | none => s
  | .countdown (.value remaining) => s.emit (.countdown remaining)
  | .expire => if s.isDue then s.onExpired else s
  | _ => s

def step (s : Session ρ) (σ : Stimulus) : Session ρ :=
  if σ = .elapse then { s with clock := s.clock + 1 }
  else if s.isClosing then s
  else
    match s.lookup, s.attempt, s.backlog with
    | some c, _, _ => s.stepLookingUp c σ
    | none, some a, _ => s.stepConnecting a σ
    | none, none, m :: rest => if σ = .resume then { s with backlog := rest }.handle m else s
    | none, none, [] => s.stepListening σ

def run (s : Session ρ) (σs : List Stimulus) : Session ρ := σs.foldl step s

end TerminalGateway.Session

import TerminalGateway.Session.Step

/-!
A server side that answers from lists, and a session over it that goes on until it has to wait
for something.
-/

namespace TerminalGateway

/-- How an attempt to connect goes: the questions first, then perhaps a wait, then the end. -/
structure ConnectPlan where
  waits : Bool := false
  prompts : List InteractivePrompt := []
  failure : Option Failure := none
  deriving DecidableEq, Repr

/-- The answers to come, one for each operation. Where a list has none left the operation
succeeds. -/
structure Script where
  connects : List ConnectPlan := []
  shells : List (Option Failure) := []
  execs : List (Option Failure) := []
  writes : List (Option Failure) := []
  resizes : List (Option Failure) := []
  current : ConnectPlan := {}
  deriving DecidableEq, Repr

namespace Script

def outcome : Option Failure → Outcome
  | none => .ok ()
  | some f => .error f

def next (answers : List (Option Failure)) : Outcome := outcome (answers.head?.getD none)

instance : Remote Script where
  connect s _ := { s with current := s.connects.head?.getD {}, connects := s.connects.tail }
  settle s := ({ s with current := {} }, outcome s.current.failure)
  shell s _ _ := ({ s with shells := s.shells.tail }, next s.shells)
  exec s _ _ _ := ({ s with execs := s.execs.tail }, next s.execs)
  write s _ := ({ s with writes := s.writes.tail }, next s.writes)
  resize s _ := ({ s with resizes := s.resizes.tail }, next s.resizes)
  closeStream s := s
  hangUp s := s

def promptCount (s : Script) : Nat :=
  s.connects.foldl (fun n p => n + p.prompts.length) s.current.prompts.length

end Script

namespace Session

def advance? (s : Session Script) : Option (Session Script) :=
  match s.attempt with
  | some _ =>
      match s.remote.current.prompts with
      | p :: rest => some ({ s with remote.current.prompts := rest }.step (.prompt p))
      | [] => if s.remote.current.waits then none else some (s.step .settle)
  | none =>
      if s.isClosing || s.lookup.isSome then none
      else if !s.backlog.isEmpty then some (s.step .resume)
      else if s.isDue then some (s.step .expire)
      else none

def playWithin : Nat → Session Script → Session Script
  | 0, s => s
  | steps + 1, s =>
      match s.advance? with
      | none => s
      | some s => playWithin steps s

/-- All that happens to a session by itself. Each question is put once, each message kept for
later is handled once and begins one attempt at most. -/
def play (s : Session Script) : Session Script :=
  s.playWithin (s.remote.promptCount + 2 * s.backlog.length + 3)

def release (s : Session Script) : Session Script :=
  { s with remote.current.waits := false }

end Session

end TerminalGateway

import TerminalGateway.Drain.Broadcast

/-!
What all tasks of a process share, and each single change of it. Between two of these changes any
other task may come in.
-/

namespace TerminalGateway.Drain

inductive ExitReason
  | idle
  | drained
  | graceElapsed
  | forced
  deriving DecidableEq, Repr

/-- The number of a session, which no other session of the process gets. -/
abbrev SessionId := Nat

structure SessionInfo where
  peer : String
  target : Option String
  deriving DecidableEq, Repr

structure Board where
  live : Nat := 0
  draining : Bool := false
  registry : List (SessionId × SessionInfo) := []
  nextId : SessionId := 0
  channel : Broadcast Nat := {}
  /-- Word of a departure that no countdown has taken. -/
  departure : Bool := false
  exitReason : Option ExitReason := none
  exited : Bool := false
  deriving DecidableEq, Repr

namespace Board

def insert (b : Board) (peer : String) : Board :=
  { b with registry := b.registry ++ [(b.nextId, ⟨peer, none⟩)], nextId := b.nextId + 1 }

def remove (b : Board) (id : SessionId) : Board :=
  { b with registry := b.registry.filter fun e => e.1 ≠ id }

/-- Notes the target of a session. One that was removed is not brought back by it. -/
def retarget (b : Board) (id : SessionId) (target : String) : Board :=
  { b with
    registry := b.registry.map fun e =>
      if e.1 = id then (e.1, { e.2 with target := some target }) else e }

theorem retarget_ids (b : Board) (id : SessionId) (target : String) :
    (b.retarget id target).registry.map (·.1) = b.registry.map (·.1) := by
  simp only [retarget, List.map_map]
  apply List.map_congr_left
  intro e _
  simp only [Function.comp_apply]
  split <;> rfl

def raise (b : Board) : Board := { b with live := b.live + 1 }

def lower (b : Board) : Board := { b with live := b.live - 1 }

def drain (b : Board) : Board := { b with draining := true }

def send (b : Board) (remaining : Nat) : Board := { b with channel := b.channel.send remaining }

def putWord (b : Board) : Board := { b with departure := true }

def takeWord (b : Board) : Board := { b with departure := false }

/-- Sets the reason of the end, once. -/
def setReason (b : Board) (reason : ExitReason) : Board :=
  { b with exitReason := b.exitReason.getD reason }

theorem setReason_of_isSome (b : Board) (reason : ExitReason) (h : b.exitReason.isSome) :
    (b.setReason reason).exitReason = b.exitReason := by
  obtain ⟨r, hr⟩ := Option.isSome_iff_exists.mp h
  simp [setReason, hr]

def exit (b : Board) : Board := { b with exited := true }

end Board

end TerminalGateway.Drain

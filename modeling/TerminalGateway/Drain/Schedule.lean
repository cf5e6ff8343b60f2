import TerminalGateway.Drain.Tasks

/-!
The runs of a process that begins a countdown only for a signal that led to a drain, and what was
done at each moment of a run.
-/

namespace TerminalGateway.Drain

namespace Task

def isCountdown : Task → Bool
  | countdown _ => true
  | _ => false

def isDrain (t : Task) : Bool := t.outcome? = some .draining

/-- A task that reads next how many sessions are live. -/
def looks : Task → Bool
  | signal .looking | countdown .starting | countdown (.woken _ _) => true
  | _ => false

end Task

abbrev Moment := Coordinator × Action

namespace Coordinator

/-- Whether a process does such a thing. It begins one countdown for each drain. -/
def admits (c : Coordinator) : Action → Bool
  | .countdown => c.tasks.countP Task.isCountdown < c.tasks.countP Task.isDrain
  | _ => true

def admitsAll (c : Coordinator) : List Action → Bool
  | [] => true
  | a :: as => c.admits a && (c.step a).admitsAll as

def moments (c : Coordinator) : List Action → List Moment
  | [] => []
  | a :: as => (c, a) :: (c.step a).moments as

/-- How many live sessions task `i` read, each time it looked. -/
def readings (past : List Moment) (i : Nat) : List Nat :=
  past.filterMap fun m =>
    if m.2 = .proceed i ∧ m.1.tasks[i]?.any Task.looks then some m.1.board.live else none

end Coordinator

end TerminalGateway.Drain

import TerminalGateway.Drain.Tasks

/-!
The coordinator as a process uses it: something happens, and then every task goes on until it has
to wait.
-/

namespace TerminalGateway.Drain.Coordinator

/-! ### Going on -/

/-- What a task does next, if it does not have to wait. -/
def next? (c : Coordinator) (i : Nat) : Task → Option Action
  | .session _ .present | .session _ .gone => none
  | .session _ _ => some (.proceed i)
  | .signal (.handled _) => none
  | .signal _ => some (.proceed i)
  | .countdown .ended => none
  | .countdown (.waiting _ due attention) =>
      if attention ≠ .asked then some (.proceed i)
      else if c.board.exited then some (.notice i)
      else if due ≤ c.clock then some (.tick i)
      else none
  | .countdown _ => some (.proceed i)

def ready? (c : Coordinator) : Option Action :=
  ((List.range c.tasks.length).zip c.tasks).findSome? fun (i, t) => c.next? i t

def restWithin : Nat → Coordinator → Coordinator
  | 0, c => c
  | steps + 1, c =>
      match c.ready? with
      | none => c
      | some a => restWithin steps (c.step a)

/-- Every task goes on until it has to wait. None causes more than eight steps, those included that
a countdown takes on its word. -/
def rest (c : Coordinator) : Coordinator := c.restWithin (8 * (c.tasks.length + 1))

def act (c : Coordinator) (a : Action) : Coordinator := (c.step a).rest

/-! ### What happens -/

def register (c : Coordinator) (peer : String) : SessionId × Coordinator :=
  (c.board.nextId, c.act (.enter peer))

def deregister (c : Coordinator) (id : SessionId) : Coordinator := c.act (.leave id)

def updateTarget (c : Coordinator) (id : SessionId) (target : String) : Coordinator :=
  c.act (.retarget id target)

def signal (c : Coordinator) : Option SignalOutcome × Coordinator :=
  let after := c.act .signal
  ((after.tasks[c.tasks.length]?).bind Task.outcome?, after)

def startCountdown (c : Coordinator) : Coordinator := c.act .countdown

def elapseOne (c : Coordinator) : Coordinator := c.act .elapse

def elapse : Nat → Coordinator → Coordinator
  | 0, c => c
  | n + 1, c => elapse n c.elapseOne

/-! ### What can be seen -/

def sessions (c : Coordinator) : List SessionInfo := c.board.registry.map (·.2)

/-- Whether each countdown goes on, in the order in which they began. -/
def countdowns (c : Coordinator) : List Bool := c.tasks.filterMap Task.isRunning?

end TerminalGateway.Drain.Coordinator

import TerminalGateway.Drain.Board

/-!
The tasks of a process, each with the place it has come to: sessions, signals and countdowns. A
task goes on by one change of the board at a time, so what `step` allows is every way in which
tasks can come between one another.

After the first signal a process waits for its sessions to leave, for as long as the grace period
at most, and counts down its seconds. A second signal ends it at once.
-/

namespace TerminalGateway.Drain

inductive SignalOutcome
  | exitNow
  | draining
  | forceExit
  deriving DecidableEq, Repr

inductive Stay
  | entered
  | present
  | leaving
  /-- It was removed and is to be counted no more. -/
  | removed
  /-- It is not counted any more, and word of that is to be given. -/
  | uncounted
  | gone
  deriving DecidableEq, Repr

inductive SignalStage
  | looking
  | concluding (outcome : SignalOutcome) (reason : ExitReason)
  | exiting (outcome : SignalOutcome)
  | handled (outcome : SignalOutcome)
  deriving DecidableEq, Repr

/-- How a countdown that waits is with word of a departure. -/
inductive Attention
  /-- It has not looked yet whether word is kept for it. -/
  | unasked
  /-- No word was kept, and it stands in line for the next one. -/
  | asked
  | told
  deriving DecidableEq, Repr

def Attention.isTold (attention : Attention) : Bool := attention = .told

inductive CountdownStage
  | starting
  /-- It waits for the next second to pass, for word of a departure, and for the end. -/
  | waiting (remaining due : Nat) (attention : Attention)
  /-- It took word of a departure and is to look for live sessions. -/
  | woken (remaining due : Nat)
  | concluding (reason : ExitReason)
  | exiting
  | ended
  deriving DecidableEq, Repr

inductive Task
  | session (id : SessionId) (stay : Stay)
  | signal (stage : SignalStage)
  | countdown (stage : CountdownStage)
  deriving DecidableEq, Repr

namespace Task

def awaitsWord : Task → Bool
  | countdown (.waiting _ _ .asked) => true
  | _ => false

def told : Task → Task
  | countdown (.waiting remaining due _) => countdown (.waiting remaining due .told)
  | t => t

def outcome? : Task → Option SignalOutcome
  | signal (.handled outcome) => some outcome
  | _ => none

def isRunning? : Task → Option Bool
  | countdown stage => some (stage ≠ .ended)
  | _ => none

end Task

inductive Action
  | enter (peer : String)
  | leave (id : SessionId)
  | retarget (id : SessionId) (target : String)
  | signal
  | countdown
  | proceed (i : Nat)
  | notice (i : Nat)
  | tick (i : Nat)
  | elapse
  deriving DecidableEq, Repr

structure Coordinator where
  /-- How long a drain may take, in milliseconds. -/
  grace : Nat
  clock : Nat := 0
  board : Board := {}
  tasks : List Task := []
  deriving DecidableEq, Repr

namespace Coordinator

def start (seconds : Nat) : Coordinator := { grace := seconds * 1000 }

def graceSeconds (c : Coordinator) : Nat := c.grace / 1000

/-- Task `i` comes to a new place and leaves the board as told. -/
def put (c : Coordinator) (i : Nat) (t : Task) (board : Board) : Coordinator :=
  { c with tasks := c.tasks.set i t, board }

def spawn (c : Coordinator) (t : Task) (board : Board) : Coordinator :=
  { c with tasks := c.tasks ++ [t], board }

/-- Word of a departure goes to a countdown that stands in line for it. If there is none it is kept
for the next one that looks, and no more than one word is kept. -/
def giveWord (c : Coordinator) : Coordinator :=
  match c.tasks.findIdx? Task.awaitsWord with
  | some i => { c with tasks := c.tasks.modify i Task.told }
  | none => { c with board := c.board.putWord }

def proceedSession (c : Coordinator) (i : Nat) (id : SessionId) : Stay → Coordinator
  | .entered => c.put i (.session id .present) c.board.raise
  | .leaving => c.put i (.session id .removed) (c.board.remove id)
  | .removed => c.put i (.session id .uncounted) c.board.lower
  | .uncounted => (c.put i (.session id .gone) c.board).giveWord
  | .present | .gone => c

def proceedSignal (c : Coordinator) (i : Nat) : SignalStage → Coordinator
  | .looking =>
      if c.board.live = 0 then c.put i (.signal (.concluding .exitNow .idle)) c.board
      else c.put i (.signal (.handled .draining)) c.board
  | .concluding outcome reason => c.put i (.signal (.exiting outcome)) (c.board.setReason reason)
  | .exiting outcome => c.put i (.signal (.handled outcome)) c.board.exit
  | .handled _ => c

def proceedCountdown (c : Coordinator) (i : Nat) : CountdownStage → Coordinator
  | .starting =>
      if c.board.live = 0 then c.put i (.countdown (.concluding .drained)) c.board
      else if c.graceSeconds = 0 then c.put i (.countdown (.concluding .graceElapsed)) c.board
      else
        c.put i (.countdown (.waiting c.graceSeconds (c.clock + 1000) .unasked))
          (c.board.send c.graceSeconds)
  | .waiting remaining due .unasked =>
      if c.board.departure then c.put i (.countdown (.woken remaining due)) c.board.takeWord
      else c.put i (.countdown (.waiting remaining due .asked)) c.board
  | .waiting _ _ .asked => c
  | .waiting remaining due .told => c.put i (.countdown (.woken remaining due)) c.board
  | .woken remaining due =>
      if c.board.live = 0 then c.put i (.countdown (.concluding .drained)) c.board
      else c.put i (.countdown (.waiting remaining due .unasked)) c.board
  | .concluding reason => c.put i (.countdown .exiting) (c.board.setReason reason)
  | .exiting => c.put i (.countdown .ended) c.board.exit
  | .ended => c

/-- A countdown waits no more as it did and leaves the board as told; word that it was given and
has not heard is passed on. -/
def stopWaiting (c : Coordinator) (i : Nat) (stage : CountdownStage) (attention : Attention)
    (board : Board) : Coordinator :=
  let c := c.put i (.countdown stage) board
  if attention.isTold then c.giveWord else c

/-- A countdown takes notice that a second has passed: it tells the seconds left, or it is over. -/
def tick (c : Coordinator) (i remaining due : Nat) (attention : Attention) : Coordinator :=
  if remaining - 1 = 0 then c.stopWaiting i (.concluding .graceElapsed) attention c.board
  else
    c.stopWaiting i (.waiting (remaining - 1) (due + 1000) .unasked) attention
      (c.board.send (remaining - 1))

def step (c : Coordinator) : Action → Coordinator
  | .enter peer => c.spawn (.session c.board.nextId .entered) (c.board.insert peer)
  | .leave id =>
      match c.tasks.findIdx? (· = .session id .present) with
      | some i => c.put i (.session id .leaving) c.board
      | none => c
  | .retarget id target => { c with board := c.board.retarget id target }
  | .signal =>
      if c.board.draining then c.spawn (.signal (.concluding .forceExit .forced)) c.board
      else c.spawn (.signal .looking) c.board.drain
  | .countdown => c.spawn (.countdown .starting) c.board
  | .proceed i =>
      match c.tasks[i]? with
      | some (.session id stay) => c.proceedSession i id stay
      | some (.signal stage) => c.proceedSignal i stage
      | some (.countdown stage) => c.proceedCountdown i stage
      | none => c
  | .notice i =>
      match c.tasks[i]? with
      | some (.countdown (.waiting _ _ attention)) =>
          if c.board.exited then c.stopWaiting i .ended attention c.board else c
      | _ => c
  | .tick i =>
      match c.tasks[i]? with
      | some (.countdown (.waiting remaining due attention)) =>
          if due ≤ c.clock then c.tick i remaining due attention else c
      | _ => c
  | .elapse => { c with clock := c.clock + 1 }

def run (c : Coordinator) (actions : List Action) : Coordinator := actions.foldl step c

end Coordinator

end TerminalGateway.Drain

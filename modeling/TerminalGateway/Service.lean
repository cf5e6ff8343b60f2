import TerminalGateway.Drain.Coordinator
import TerminalGateway.Session.Step

/-!
The sessions of a process with their coordinator. What a session tells the coordinator reaches it
at once; what the coordinator tells its sessions waits until they listen.
-/

namespace TerminalGateway

structure Seat (ρ : Type) where
  id : Drain.SessionId
  session : Session ρ
  subscription : Drain.Subscription

structure Service (ρ : Type) where
  coordinator : Drain.Coordinator
  seats : List (Seat ρ) := []

namespace Service

variable {ρ : Type} [Remote ρ]

/-- What the coordinator learns of a thing that a session did. -/
def tell (id : Drain.SessionId) (c : Drain.Coordinator) : Entry → Drain.Coordinator
  | .retargeted label => c.updateTarget id label
  | .left => c.deregister id
  | _ => c

/-- What a session did since it was as `before`. -/
def news (before after : Session ρ) : List Entry := after.record.drop before.record.length

def seat? (v : Service ρ) (id : Drain.SessionId) : Option (Seat ρ) := v.seats.find? (·.id = id)

def setSeat (v : Service ρ) (seat : Seat ρ) : Service ρ :=
  { v with seats := v.seats.map fun k => if k.id = seat.id then seat else k }

def move (v : Service ρ) (seat : Seat ρ) (session : Session ρ) : Service ρ :=
  { v.setSeat { seat with session } with
    coordinator := (news seat.session session).foldl (tell seat.id) v.coordinator }

structure Arrival (ρ : Type) where
  peer : String
  config : Config
  remote : ρ
  cached : Option Credentials := none
  env : Environment.Pairs := []

def Arrival.session (a : Arrival ρ) : Session ρ := .start a.config a.remote a.cached a.env

/-- The session of a client hears what the coordinator tells from its arrival on. -/
def arrive (v : Service ρ) (a : Arrival ρ) : Drain.SessionId × Service ρ :=
  let (id, coordinator) := v.coordinator.register a.peer
  (id, {
    coordinator
    seats := v.seats ++ [⟨id, a.session, coordinator.board.channel.subscribe⟩] })

def update (v : Service ρ) (id : Drain.SessionId) (f : Session ρ → Session ρ) : Service ρ :=
  match v.seat? id with
  | some seat => v.move seat (f seat.session)
  | none => v

def hear (v : Service ρ) (id : Drain.SessionId) : Service ρ :=
  match v.seat? id with
  | none => v
  | some seat =>
      if !seat.session.isListening then v
      else
        match v.coordinator.board.channel.take? seat.subscription with
        | none => v
        | some (r, subscription) =>
            v.move { seat with subscription } (seat.session.step (.countdown r))

def hearAll (v : Service ρ) (id : Drain.SessionId) : Service ρ :=
  (List.range (Drain.Broadcast.capacity + 2)).foldl (fun v _ => v.hear id) v

def elapse (v : Service ρ) : Service ρ :=
  { coordinator := v.coordinator.elapseOne
    seats := v.seats.map fun k => { k with session := k.session.step .elapse } }

inductive Stimulus (ρ : Type)
  | arrival (a : Arrival ρ)
  | session (id : Drain.SessionId) (σ : Session.Stimulus)
  | hear (id : Drain.SessionId)
  | signal
  | countdown
  | elapse

/-- Seconds left are heard in no other way than through `hear`, and time passes for all alike. -/
def step (v : Service ρ) : Stimulus ρ → Service ρ
  | .arrival a => (v.arrive a).2
  | .session _ (.countdown _) | .session _ .elapse => v
  | .session id σ => v.update id (·.step σ)
  | .hear id => v.hear id
  | .signal => { v with coordinator := v.coordinator.signal.2 }
  | .countdown => { v with coordinator := v.coordinator.startCountdown }
  | .elapse => v.elapse

def run (v : Service ρ) (σs : List (Stimulus ρ)) : Service ρ := σs.foldl step v

end Service

end TerminalGateway

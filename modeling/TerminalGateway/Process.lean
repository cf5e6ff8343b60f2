import TerminalGateway.Service

/-!
The sessions of a process with their coordinator, at the pace of single changes of the board:
between two of them anything else may happen. A place with the coordinator is there when its
registration is over. A session takes it and gives it up at its end, or it is given up without one.
-/

namespace TerminalGateway

structure Process (ρ : Type) extends Service ρ where
  /-- The places that no session has taken. -/
  places : List Drain.SessionId := []

namespace Process

open Drain

variable {ρ : Type} [Remote ρ]

def start (seconds : Nat) : Process ρ := { coordinator := .start seconds, seats := [] }

/-- The place that is there when the coordinator has done something: its session was counted. -/
def granted? (c : Coordinator) : Action → Option SessionId
  | .proceed i =>
      match c.tasks[i]? with
      | some (.session id .entered) => some id
      | _ => none
  | _ => none

def change (v : Process ρ) (a : Action) : Process ρ :=
  { v with
    coordinator := v.coordinator.step a
    places := v.places ++ (granted? v.coordinator a).toList }

/-- What the coordinator learns at once of a thing that a session did. -/
def tell (id : SessionId) (c : Coordinator) : Entry → Coordinator
  | .retargeted label => c.step (.retarget id label)
  | .left => c.step (.leave id)
  | _ => c

/-- A session moves on, and the coordinator begins to learn of it. -/
def move (v : Process ρ) (seat : Seat ρ) (session : Session ρ) : Process ρ :=
  { v with
    seats := (v.setSeat { seat with session }).seats
    coordinator := (Service.news seat.session session).foldl (tell seat.id) v.coordinator }

def update (v : Process ρ) (id : SessionId) (f : Session ρ → Session ρ) : Process ρ :=
  match v.seat? id with
  | some seat => v.move seat (f seat.session)
  | none => v

def hear (v : Process ρ) (id : SessionId) : Process ρ :=
  match v.seat? id with
  | none => v
  | some seat =>
      if !seat.session.isListening then v
      else
        match v.coordinator.board.channel.take? seat.subscription with
        | none => v
        | some (r, subscription) =>
            v.move { seat with subscription } (seat.session.step (.countdown r))

def sit (v : Process ρ) (id : SessionId) (a : Service.Arrival ρ) : Process ρ :=
  if id ∈ v.places then
    { v with
      places := v.places.erase id
      seats := v.seats ++ [⟨id, a.session, v.coordinator.board.channel.subscribe⟩] }
  else v

/-- A place is given up that no session has taken. -/
def drop (v : Process ρ) (id : SessionId) : Process ρ :=
  if id ∈ v.places then
    { v with places := v.places.erase id, coordinator := v.coordinator.step (.leave id) }
  else v

/-- A session is abandoned, and its place with it if it still has one. -/
def quit (v : Process ρ) (id : SessionId) : Process ρ :=
  match v.seat? id with
  | none => v
  | some seat =>
      { v with
        seats := v.seats.filter (·.id ≠ id)
        coordinator :=
          if seat.session.registered then v.coordinator.step (.leave id) else v.coordinator }

def elapse (v : Process ρ) : Process ρ :=
  { v with
    coordinator := v.coordinator.step .elapse
    seats := v.seats.map fun k => { k with session := k.session.step .elapse } }

inductive Event (ρ : Type)
  | change (a : Action)
  | sit (id : SessionId) (a : Service.Arrival ρ)
  | session (id : SessionId) (σ : Session.Stimulus)
  | hear (id : SessionId)
  | quit (id : SessionId)

/-- The coordinator loses a session with its place only, and time passes for all alike. -/
def step (v : Process ρ) : Event ρ → Process ρ
  | .change (.leave id) => v.drop id
  | .change .elapse => v.elapse
  | .change a => v.change a
  | .sit id a => v.sit id a
  | .session _ (.countdown _) | .session _ .elapse => v
  | .session id σ => v.update id (·.step σ)
  | .hear id => v.hear id
  | .quit id => v.quit id

def run (v : Process ρ) (es : List (Event ρ)) : Process ρ := es.foldl step v

/-- The sessions that were not torn down. -/
def standing (seats : List (Seat ρ)) : List SessionId :=
  (seats.filter (·.session.registered)).map (·.id)

def guards (v : Process ρ) : List SessionId := v.places ++ standing v.seats

end Process

end TerminalGateway

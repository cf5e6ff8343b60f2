import TerminalGateway.Session.Step

/-!
A session and its server side while they connect. The server side works on its own: it leaves its
questions for the session and comes to its end without waiting for it. The session looks for that
end first, then for a question, and listens to its client only when there is neither. At the end it
takes all the questions that are left, and then learns the outcome.
-/

namespace TerminalGateway

inductive Notice
  | began (credentials : Credentials)
  | asked (prompt : InteractivePrompt)
  /-- The client went away, and the session noticed. -/
  | gone
  | finished
  deriving DecidableEq

structure Waiting (ρ : Type) where
  session : Session ρ
  /-- Questions that the session has not taken yet. -/
  questions : List InteractivePrompt := []
  /-- The attempt to connect has come to its end, and the session has not looked since. -/
  finished : Bool := false
  notices : List Notice := []

namespace Waiting

inductive Event
  | happens (σ : Session.Stimulus)
  /-- The session looks for what its server side has left for it. -/
  | looks
  deriving DecidableEq

variable {ρ : Type} [Remote ρ]

omit [Remote ρ] in
def listens (w : Waiting ρ) (a : Attempt) : Bool :=
  !w.finished && w.questions.isEmpty && !a.abandoned

/-- What happens to a session that does not connect. -/
def stepAside (w : Waiting ρ) (σ : Session.Stimulus) : Waiting ρ :=
  let s := w.session.step σ
  { w with
    session := s
    notices := w.notices ++ (s.attempt.map fun a => .began a.credentials).toList }

def stepConnecting (w : Waiting ρ) (a : Attempt) : Session.Stimulus → Waiting ρ
  | .prompt p =>
      if w.finished then w
      else { w with questions := w.questions ++ [p], notices := w.notices ++ [.asked p] }
  | .settle =>
      if w.finished then w else { w with finished := true, notices := w.notices ++ [.finished] }
  | .message m => if w.listens a then { w with session := w.session.step (.message m) } else w
  | .departed =>
      if w.listens a then
        { w with session := w.session.step .departed, notices := w.notices ++ [.gone] }
      else w
  | σ => { w with session := w.session.step σ }

def look (w : Waiting ρ) : Waiting ρ :=
  if w.finished then
    { w with
      session := w.session.run (w.questions.map .prompt ++ [.settle])
      questions := []
      finished := false }
  else
    match w.questions with
    | [] => w
    | p :: rest => { w with session := w.session.step (.prompt p), questions := rest }

def step (w : Waiting ρ) : Event → Waiting ρ
  | .happens σ =>
      match w.session.attempt with
      | none => w.stepAside σ
      | some a => w.stepConnecting a σ
  | .looks => w.look

def run (w : Waiting ρ) (es : List Event) : Waiting ρ := es.foldl step w

end Waiting

end TerminalGateway

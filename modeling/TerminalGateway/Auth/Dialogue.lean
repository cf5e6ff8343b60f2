import TerminalGateway.Auth.Exchange

/-!
The keyboard-interactive method. Many servers ask in this way for what is a password in truth, so
a known password is the answer to every question. Without one the questions are passed on to the
user and answered with nothing.
-/

namespace TerminalGateway.Auth

def roundLimit : Nat := 10

def answersTo (count : Nat) (password : Option String) : List String :=
  match password with
  | some password => List.replicate count password
  | none => []

/-- Questions are passed on if there are any and no password to answer them with. -/
def Exchange.passOn (x : Exchange) (password : Option String) (p : InteractivePrompt) : Exchange :=
  if password.isNone ∧ p.prompts ≠ [] then x.forward p else x

@[simp] theorem Exchange.turns_passOn (x : Exchange) (password : Option String)
    (p : InteractivePrompt) : (x.passOn password p).turns = x.turns := by
  unfold passOn
  split <;> rfl

@[simp] theorem Exchange.requests_passOn (x : Exchange) (password : Option String)
    (p : InteractivePrompt) : (x.passOn password p).requests = x.requests := by
  simp [requests]

/-- The rest of a dialogue after a reply, with the rounds that are left. A client without a round
left takes the server to refuse. -/
def Exchange.converse (server : Server) (password : Option String) :
    Nat → Except Lapse Reply → Exchange → Except Lapse Verdict × Exchange
  | _, .error lapse, x => (.error lapse, x)
  | 0, .ok _, x => (.ok (.refused [] false), x)
  | _ + 1, .ok (.verdict v), x => (.ok v, x)
  | rounds + 1, .ok (.questions p), x =>
      let (reply, x) :=
        (x.passOn password p).say server (.answers (answersTo p.prompts.length password))
      converse server password rounds reply x

def Exchange.dialogue (x : Exchange) (server : Server) (password : Option String) :
    Except Lapse Verdict × Exchange :=
  let (reply, x) := x.say server .keyboardInteractive
  converse server password roundLimit reply x

end TerminalGateway.Auth

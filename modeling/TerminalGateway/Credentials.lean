import TerminalGateway.Numeral.Digits
import TerminalGateway.Text.Quoted

/-!
What it takes to log in to a server.
-/

namespace TerminalGateway

structure Credentials where
  host : String
  port : Nat
  username : String
  password : Option String
  privateKey : Option String
  passphrase : Option String
  deriving DecidableEq, Repr

namespace Credentials

/-- A text that is there and not empty. -/
def isGiven (s : Option String) : Bool := s.any (!·.isEmpty)

def hasSecret (c : Credentials) : Bool := isGiven c.password || isGiven c.privateKey

/-- The target as a client shows it; a host with a colon stands in brackets. -/
def label (c : Credentials) : String :=
  let host := if c.host.toList.contains ':' then "[" ++ c.host ++ "]" else c.host
  "ssh://" ++ host ++ ":" ++ Numeral.decimal c.port

/-- A secret in a description: only whether there is one. -/
def hidden : Option String → String
  | none => "None"
  | some _ => "Some(" ++ Text.quoted "<redacted>" ++ ")"

def description (c : Credentials) : String :=
  "SessionCredentials \x7b host: " ++ Text.quoted c.host
    ++ ", port: " ++ Numeral.decimal c.port
    ++ ", username: " ++ Text.quoted c.username
    ++ ", password: " ++ hidden c.password
    ++ ", private_key: " ++ hidden c.privateKey
    ++ ", passphrase: " ++ hidden c.passphrase ++ " \x7d"

/-- An address in brackets without them; any other host stays as it is. -/
def unbracket (host : String) : String :=
  match host.toList with
  | '[' :: r =>
      if r.getLast? = some ']' ∧ r.dropLast ≠ [] then String.ofList r.dropLast else host
  | _ => host

end Credentials

end TerminalGateway

import TerminalGateway.Credentials
import TerminalGateway.Environment
import TerminalGateway.Text.Utf8

/-!
What a client asks for.
-/

namespace TerminalGateway

/-- The size of a terminal in characters. -/
structure Dimensions where
  rows : Nat
  cols : Nat
  deriving DecidableEq, Repr

/-- The size of a terminal whose client names none. -/
def Dimensions.standard : Dimensions := ⟨24, 80⟩

structure AuthRequest where
  credentials : Credentials
  term : Option String
  dimensions : Option Dimensions
  deriving DecidableEq, Repr

structure TerminalRequest where
  term : Option String
  dimensions : Dimensions
  deriving DecidableEq, Repr

structure ExecRequest where
  command : String
  pty : Bool
  term : Option String
  dimensions : Dimensions
  env : Environment.Pairs
  timeout : Option Nat
  deriving DecidableEq, Repr

inductive ControlAction
  | reauth
  | clearCredentials
  | disconnect
  | replayCredentials
  deriving DecidableEq, Repr

def ControlAction.name : ControlAction → String
  | .reauth => "reauth"
  | .clearCredentials => "clear-credentials"
  | .disconnect => "disconnect"
  | .replayCredentials => "replayCredentials"

def ControlAction.ofName? (name : String) : Option ControlAction :=
  if name = "reauth" then some .reauth
  else if name = "clear-credentials" then some .clearCredentials
  else if name = "disconnect" then some .disconnect
  else if name = "replayCredentials" then some .replayCredentials
  else none

theorem ControlAction.ofName?_name (a : ControlAction) : ofName? a.name = some a := by
  cases a <;> decide

inductive ClientMessage
  | auth (request : AuthRequest)
  | terminal (request : TerminalRequest)
  | resize (dimensions : Dimensions)
  | exec (request : ExecRequest)
  | control (action : ControlAction)
  | data (bytes : Octets)
  deriving DecidableEq, Repr

end TerminalGateway

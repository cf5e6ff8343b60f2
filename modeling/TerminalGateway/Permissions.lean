/-!
What a client may do in its session, as the operator decided.
-/

namespace TerminalGateway

structure Permissions where
  autoLog : Bool
  allowReplay : Bool
  allowReconnect : Bool
  allowReauth : Bool
  deriving DecidableEq, Repr

/-- The permissions of a gateway whose operator decided nothing. -/
def Permissions.standard : Permissions := ⟨false, false, true, true⟩

end TerminalGateway

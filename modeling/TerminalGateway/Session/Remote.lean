import TerminalGateway.Event
import TerminalGateway.Failure.Basic
import TerminalGateway.Message.Basic

/-!
The server side of a session. A session knows it by these operations only, so a session can run
over a connection to a server as well as over a list of answers.
-/

namespace TerminalGateway

structure Terminal where
  term : String
  dimensions : Dimensions
  deriving DecidableEq, Repr

/-- What a stream delivers. Nothing follows `closed` or `failed`. -/
inductive StreamEvent
  | data (bytes : Octets)
  | extendedData (bytes : Octets)
  | exitStatus (code : Nat)
  | exitSignal (name : String)
  | closed
  | failed (f : Failure)
  deriving DecidableEq, Repr

/-- The server side of a session. `connect` begins a connection and `settle` tells what came of
it; in between the session goes on listening to its client. A `shell` or `exec` that succeeds
opens a stream, of which there is one at most. -/
class Remote (ρ : Type) where
  connect : ρ → Credentials → ρ
  settle : ρ → ρ × Outcome
  shell : ρ → Terminal → Environment.Pairs → ρ × Outcome
  exec : ρ → String → Option Terminal → Environment.Pairs → ρ × Outcome
  write : ρ → Octets → ρ × Outcome
  resize : ρ → Dimensions → ρ × Outcome
  closeStream : ρ → ρ
  hangUp : ρ → ρ

end TerminalGateway

import TerminalGateway.Event
import TerminalGateway.Message.Decode

/-!
The frames of a WebSocket, as messages of the client and events for it. Terminal output travels
as bare octets in both directions, everything else as JSON text.
-/

namespace TerminalGateway.Http

inductive Frame
  | text (s : String)
  | binary (bytes : Octets)
  | ping (bytes : Octets)
  | pong (bytes : Octets)
  | close
  deriving DecidableEq, Repr

namespace Frame

def message? : Frame → Option (Except Rejection ClientMessage)
  | .text s => some (ClientMessage.ofText s)
  | .binary bytes => some (.ok (.data bytes))
  | .ping _ | .pong _ | .close => none

/-- The messages of a client: of all that arrives up to the frame that closes the socket, or up
to a failure to read one. -/
def messages : List (Option Frame) → List (Except Rejection ClientMessage)
  | [] | none :: _ | some .close :: _ => []
  | some f :: rest => f.message?.toList ++ messages rest

theorem messages_close (rest : List (Option Frame)) : messages (some .close :: rest) = [] := by
  simp [messages]

theorem messages_text (s : String) (rest : List (Option Frame)) :
    messages (some (.text s) :: rest) = ClientMessage.ofText s :: messages rest := by
  simp [messages, message?]

def ofEvent : ServerEvent → Frame
  | .data bytes => .binary bytes
  | e => .text e.text

end Frame

end TerminalGateway.Http

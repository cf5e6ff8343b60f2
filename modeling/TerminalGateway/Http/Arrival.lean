import TerminalGateway.Http.Authorization
import TerminalGateway.Http.Frame
import TerminalGateway.Service

/-!
The way from a request for a session to the session: what it begins with, and what of the frames
on its socket reaches it.
-/

namespace TerminalGateway.Http

variable {ρ : Type}

def arrival (config : Config) (peer : String) (authorizations : List String)
    (query : SessionQuery) (remote : ρ) : Service.Arrival ρ :=
  { peer
    config
    remote
    cached := requestCredentials? authorizations query config.ssh
    env := (query.env.map Environment.ofList).getD [] }

/-- What a session is told of the frames of its socket: the messages one by one, and at the end
that its client has gone. -/
def stimuli (frames : List (Option Frame)) : List Session.Stimulus :=
  (Frame.messages frames).map .message ++ [.departed]

def outgoing (record : List Entry) : List Frame :=
  record.filterMap fun e => match e with
    | .sent event => some (Frame.ofEvent event)
    | .socketClosed => some .close
    | _ => none

end TerminalGateway.Http

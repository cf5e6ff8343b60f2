import TerminalGateway.Auth.Chain
import TerminalGateway.Session.Remote

/-!
A server as a connection meets it: what it can be asked, and what it says after all that it was
asked.
-/

namespace TerminalGateway

inductive ChannelRequest
  | env (name value : String)
  | terminal (t : Terminal)
  | shell
  | exec (command : String)
  | data (bytes : Octets)
  | resize (d : Dimensions)
  | close
  deriving DecidableEq, Repr

/-- What a server is asked. Links and channels are numbered in the order of opening. -/
inductive Ask
  | dial (host : String) (port : Nat)
  | authenticate (link : Nat) (username : String) (request : Auth.Request)
  | openChannel (link : Nat)
  | channel (number : Nat) (request : ChannelRequest)
  | disconnect (link : Nat)
  deriving DecidableEq, Repr

/-- A server, by what it says to the last of all that it was asked. -/
structure Peer where
  dial : List Ask → Except Auth.Lapse Unit
  decide : List Ask → Except Auth.Lapse Auth.Verdict
  converse : List Ask → Except Auth.Lapse Auth.Reply
  /-- Whether a channel is opened, or a request for one is carried. -/
  permit : List Ask → Except TransportError Unit

def Peer.server (p : Peer) (asked : List Ask) (link : Nat) (username : String) : Auth.Server :=
  { decide := fun requests => p.decide (asked ++ requests.map (.authenticate link username))
    converse := fun requests =>
      p.converse (asked ++ requests.map (.authenticate link username)) }

end TerminalGateway

import TerminalGateway.Failure.Io

/-!
Failures of the SSH transport. A server that drops a connection before authentication is complete
rejects the client; a server that cannot be reached does not.
-/

namespace TerminalGateway

inductive TransportError
  | io (e : IoError)
  | invalidConfig (reason : String)
  | packetSize (size : Nat)
  | keyChanged (line : Nat)
  | unreadableKey
  | keyExchangeInit
  | unknownAlgorithm
  | version
  | keyExchange
  | packetAuthentication
  | inconsistent
  | notAuthenticated
  | unsupportedMethod
  | indexOutOfBounds
  | unknownKey
  | wrongServerSignature
  | wrongChannel
  | disconnect
  | noHomeDirectory
  | hangUp
  | connectionTimeout
  | keepaliveTimeout
  | inactivityTimeout
  | noMethod
  | send
  | pendingLimit
  | decryption
  | requestDenied
  | receive
  | openRefused
  deriving DecidableEq, Repr

namespace TransportError

def text : TransportError → String
  | .io e => e.text
  | .invalidConfig reason => "Invalid config: " ++ reason
  | .packetSize size => "Bad packet size: " ++ Numeral.decimal size
  | .keyChanged line => "Key changed, line " ++ Numeral.decimal line
  | .unreadableKey => "Could not read key"
  | .keyExchangeInit => "Key exchange init failed"
  | .unknownAlgorithm => "Unknown algorithm"
  | .version => "invalid SSH version string"
  | .keyExchange => "Key exchange failed"
  | .packetAuthentication => "Wrong packet authentication code"
  | .inconsistent => "Inconsistent state of the protocol"
  | .notAuthenticated => "Not yet authenticated"
  | .unsupportedMethod => "Unsupported authentication method"
  | .indexOutOfBounds => "Index out of bounds"
  | .unknownKey => "Unknown server key"
  | .wrongServerSignature => "Wrong server signature"
  | .wrongChannel => "Channel not open"
  | .disconnect => "Disconnected"
  | .noHomeDirectory => "No home directory when saving host key"
  | .hangUp => "Connection closed by the remote side"
  | .connectionTimeout => "Connection timeout"
  | .keepaliveTimeout => "Keepalive timeout"
  | .inactivityTimeout => "Inactivity timeout"
  | .noMethod => "No authentication method"
  | .send => "Channel send error"
  | .pendingLimit => "Pending buffer limit reached"
  | .decryption => "Failed to decrypt a packet"
  | .requestDenied => "The request was rejected by the other party"
  | .receive => "Unable to receive more messages from the channel"
  | .openRefused => "Failed to open channel (AdministrativelyProhibited)"

end TransportError

namespace Failure

/-- The failure of a server that left before authentication was complete. -/
def leftEarly (e : TransportError) : Failure :=
  authentication ("Connection closed before authentication completed: " ++ e.text)

def ofTransport (e : TransportError) (authenticated : Bool) : Failure :=
  match e with
  | .io io => if !authenticated && io.isHangUp then leftEarly e else ofIo io
  | .connectionTimeout | .keepaliveTimeout | .inactivityTimeout => timeout e.text
  | .disconnect | .hangUp | .send | .receive =>
      if authenticated then ⟨none, none, e.text⟩ else leftEarly e
  | .notAuthenticated => authentication e.text
  | _ => ⟨none, none, e.text⟩

end Failure

end TerminalGateway

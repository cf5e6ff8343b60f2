import TerminalGateway.Connection.Peer
import TerminalGateway.Numeral.Duration

/-!
A connection to a server, and at most one stream on it.
-/

namespace TerminalGateway

structure Connection where
  peer : Peer
  /-- How long connecting and logging in may take, in milliseconds. -/
  readyTimeout : Nat
  readKey : Auth.KeyReader
  /-- The link that the client is logged in on. -/
  handle : Option Nat := none
  /-- The channel of the open stream. -/
  stream : Option Nat := none
  /-- The credentials of the attempt to connect that goes on. -/
  pending : Option Credentials := none
  links : Nat := 0
  channels : Nat := 0
  asked : List Ask := []
  forwarded : List InteractivePrompt := []

namespace Connection

def ask (c : Connection) (a : Ask) : Connection := { c with asked := c.asked ++ [a] }

def request (c : Connection) (a : Ask) : Connection × Except TransportError Unit :=
  (c.ask a, c.peer.permit (c.asked ++ [a]))

/-! ### Closing -/

/-- Closes the stream and keeps the link. -/
def closeStream (c : Connection) : Connection :=
  match c.stream with
  | some n => { c with stream := none }.ask (.channel n .close)
  | none => c

def hangUp (c : Connection) : Connection :=
  let c := c.closeStream
  match c.handle with
  | some link => { c with handle := none }.ask (.disconnect link)
  | none => c

theorem hangUp_handle (c : Connection) : c.hangUp.handle = none := by
  simp only [hangUp]
  split
  · rfl
  · assumption

/-! ### Connecting -/

def failureOf (c : Connection) : Auth.Lapse → Failure
  | .broken e => .ofTransport e false
  | .silent => .timeout ("Connection timed out after " ++ Numeral.duration c.readyTimeout)

def login (c : Connection) (link : Nat) (who : Credentials) : Connection × Outcome :=
  let (verdict, x) := Auth.authenticate (c.peer.server c.asked link who.username) c.readKey who
  let c :=
    { c with
      asked := c.asked ++ x.requests.map (.authenticate link who.username)
      forwarded := c.forwarded ++ x.forwarded }
  match verdict with
  | .ok true => ({ c with handle := some link }, .ok ())
  | .ok false =>
      (c.ask (.disconnect link),
        .error (.authentication "All configured authentication methods failed"))
  | .error lapse => (c, .error (c.failureOf lapse))

def establish (c : Connection) (who : Credentials) : Connection × Outcome :=
  let link := c.links
  let c := { c.ask (.dial who.host who.port) with links := link + 1 }
  match c.peer.dial c.asked with
  | .ok () => c.login link who
  | .error lapse => (c, .error (c.failureOf lapse))

/-- Begins to connect; a link that there is goes first. -/
def begin (c : Connection) (who : Credentials) : Connection :=
  { if c.handle.isSome then c.hangUp else c with pending := some who }

def settle (c : Connection) : Connection × Outcome :=
  match c.pending with
  | some who => { c with pending := none }.establish who
  | none => (c, .error (.stream "Not connected"))

def connect (c : Connection) (who : Credentials) : Connection × Outcome := (c.begin who).settle

/-! ### Streams -/

/-- Asks for one thing after another on a channel until one is not carried. Each comes with the
words for that. -/
def requestAll (c : Connection) (channel : Nat) :
    List (ChannelRequest × String) → Connection × Outcome
  | [] => (c, .ok ())
  | (r, words) :: rest =>
      match c.request (.channel channel r) with
      | (c, .ok ()) => requestAll c channel rest
      | (c, .error e) => (c, .error (.stream (words ++ ": " ++ e.text)))

def openStream (c : Connection) (env : Environment.Pairs) (terminal : Option Terminal)
    (program : ChannelRequest) (words : String) : Connection × Outcome :=
  let c := c.closeStream
  match c.handle with
  | none => (c, .error (.stream "Not connected"))
  | some link =>
      match c.request (.openChannel link) with
      | (c, .error e) => (c, .error (.ofTransport e true))
      | (c, .ok ()) =>
          let channel := c.channels
          let requests :=
            env.map (fun p => (.env p.1 p.2, "Failed to set " ++ p.1))
              ++ (terminal.map fun t => (.terminal t, "PTY request failed")).toList
              ++ [(program, words)]
          match { c with channels := channel + 1 }.requestAll channel requests with
          | (c, .ok ()) => ({ c with stream := some channel }, .ok ())
          | (c, .error f) => (c, .error f)

def shell (c : Connection) (t : Terminal) (env : Environment.Pairs) : Connection × Outcome :=
  c.openStream env (some t) .shell "Shell request failed"

def exec (c : Connection) (command : String) (t : Option Terminal) (env : Environment.Pairs) :
    Connection × Outcome :=
  c.openStream env t (.exec command) "Failed to execute command"

def write (c : Connection) (bytes : Octets) : Connection × Outcome :=
  match c.stream with
  | none => (c, .error (.stream "No active stream"))
  | some channel => c.requestAll channel [(.data bytes, "Failed to write to stream")]

/-- Tells the server the new size of the terminal, if there is a stream. -/
def resize (c : Connection) (d : Dimensions) : Connection × Outcome :=
  match c.stream with
  | none => (c, .ok ())
  | some channel => c.requestAll channel [(.resize d, "Failed to resize PTY")]

end Connection

instance : Remote Connection where
  connect := Connection.begin
  settle := Connection.settle
  shell := Connection.shell
  exec := Connection.exec
  write := Connection.write
  resize := Connection.resize
  closeStream := Connection.closeStream
  hangUp := Connection.hangUp

end TerminalGateway

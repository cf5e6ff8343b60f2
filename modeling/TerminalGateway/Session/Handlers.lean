import TerminalGateway.Session.Basic

/-!
What a session does about each thing that happens to it. Only the first failure of a session is
told to its client; later ones mostly follow from it.
-/

namespace TerminalGateway.Session

variable {ρ : Type} [Remote ρ]

/-! ### Operations of the server side -/

def hangUp (s : Session ρ) : Session ρ :=
  { s with remote := Remote.hangUp s.remote }.note (.called .hangUp (.ok ()))

def closeStream (s : Session ρ) : Session ρ :=
  { s with remote := Remote.closeStream s.remote }.note (.called .closeStream (.ok ()))

def connect (s : Session ρ) (c : Credentials) : Session ρ :=
  { s with remote := Remote.connect s.remote c, attempt := some ⟨c, false⟩ }.note
    (.called (.connect c) (.ok ()))

def call (s : Session ρ) (what : Call) (result : ρ × Outcome) : Session ρ × Outcome :=
  ({ s with remote := result.1 }.note (.called what result.2), result.2)

def shell (s : Session ρ) (t : Terminal) (env : Environment.Pairs) : Session ρ × Outcome :=
  s.call (.shell t env) (Remote.shell s.remote t env)

def exec (s : Session ρ) (command : String) (t : Option Terminal) (env : Environment.Pairs) :
    Session ρ × Outcome :=
  s.call (.exec command t env) (Remote.exec s.remote command t env)

def write (s : Session ρ) (bytes : Octets) : Session ρ × Outcome :=
  s.call (.write bytes) (Remote.write s.remote bytes)

def resize (s : Session ρ) (d : Dimensions) : Session ρ × Outcome :=
  s.call (.resize d) (Remote.resize s.remote d)

def attach (s : Session ρ) (kind : StreamKind) : Session ρ :=
  { s with
    stream := some { kind }
    receiver := some s.opened
    opened := s.opened + 1
    phase := .streaming }

/-! ### Failures and the end -/

/-- Ends the session: the connection, the socket and its place with the coordinator. A session
that has ended stays as it is. -/
def teardown (s : Session ρ) : Session ρ :=
  if s.isClosing then s
  else
    let s := { s with phase := .closing }.dropStream.hangUp.note .socketClosed
    let s := { s with phase := .closed }
    if s.registered then { s with registered := false }.note .left else s

/-- Keeps a failure if it is the first one, and tells whether it is. -/
def recordError (s : Session ρ) (message : String) : Session ρ × Bool :=
  if s.firstError.isSome then (s, false)
  else ({ s with firstError := some message }, true)

def fail (s : Session ρ) (message : String) : Session ρ :=
  match s.recordError message with
  | (s, true) => s.emit (.sshError message)
  | (s, false) => s

/-- Invites the client to log in again, once in a session and if it may, and tells whether. -/
def offerReauth (s : Session ρ) : Session ρ × Bool :=
  if !s.permissions.allowReauth || s.reauthOffered then (s, false)
  else ({ s with reauthOffered := true }.emit .reauth, true)

/-- The host and port that failures are told with. -/
def target (s : Session ρ) : String × Nat :=
  match s.credentials with
  | some c => (c.host, c.port)
  | none => ("", 0)

/-- A stream failed, or an operation on it did: the session ends. -/
def onStreamError (s : Session ρ) (f : Failure) : Session ρ :=
  let s := s.dropStream
  let message := f.userMessage s.target.1 s.target.2
  match s.recordError message with
  | (s, false) => s.teardown
  | (s, true) =>
      let (s, offered) :=
        if f.level = some .clientAuthentication then s.offerReauth else (s, false)
      if offered then s.teardown else (s.emit (.sshError message)).teardown

/-! ### Connecting -/

/-- What a client reads whose request brought no secret when none was kept for it. -/
def refreshAndRetry : String :=
  "Your session has expired or is missing credentials. Please refresh the page and try again."

/-- The credentials to connect with: those of the request if they have a secret, else the ones
kept for it. -/
def resolve? (s : Session ρ) (requested : Credentials) : Option Credentials :=
  if requested.hasSecret then some requested else s.cached.filter (·.hasSecret)

def onResolved (s : Session ρ) (c : Credentials) (found : Except String (List Net.Address)) :
    Session ρ :=
  let s := { s with lookup := none }.note (.vetted c found)
  match Net.judge s.config.ssh.allowedSubnets c.host found with
  | .error refusal => (s.fail refusal.text).teardown
  | .ok () => s.connect c

/-- Connects, after a check of the target if the operator restricted it. -/
def approach (s : Session ρ) (c : Credentials) : Session ρ :=
  if s.config.ssh.allowedSubnets.isEmpty then s.connect c
  else
    match Net.literal? c.host with
    | some a => s.onResolved c (.ok [a])
    | none => { s with lookup := some c }

def onAuth (s : Session ρ) (request : AuthRequest) : Session ρ :=
  let s :=
    if s.phase = .connected ∨ s.phase = .streaming then s.dropStream.hangUp else s
  match s.resolve? request.credentials with
  | none => (s.fail refreshAndRetry).teardown
  | some c =>
      { s with
        term := request.term.getD s.term
        dimensions := request.dimensions.getD s.dimensions
        phase := .authenticating
        credentials := some c }.approach c

def onConnected (s : Session ρ) (c : Credentials) : Session ρ :=
  let s := { s with phase := .connected, everConnected := true }
  let s := s.emit (.authResult true none)
  let s := s.emit (.permissions s.permissions)
  let s := s.emit (.footer c.label)
  let s := s.emit (.getTerminal true)
  if s.registered then s.note (.retargeted c.label) else s

def onConnectFailed (s : Session ρ) (c : Credentials) (f : Failure) : Session ρ :=
  let s := if f.kind.clearsCredentials then { s with cached := none } else s
  let message := f.userMessage c.host c.port
  let s :=
    match s.recordError message with
    | (s, true) => s.emit (.authResult false (some message))
    | (s, false) => s
  let s := if f.kind = .authentication then s.offerReauth.1 else s
  s.teardown

def onSettled (s : Session ρ) (a : Attempt) : Session ρ :=
  let (remote, outcome) := Remote.settle s.remote
  let s := { s with remote, attempt := none }.note (.settled outcome)
  if a.abandoned then s.teardown
  else
    match outcome with
    | .ok () => s.onConnected a.credentials
    | .error f => s.onConnectFailed a.credentials f

/-! ### Messages -/

def onTerminal (s : Session ρ) (request : TerminalRequest) : Session ρ :=
  if s.phase = .streaming then s
  else if s.phase ≠ .connected then
    s.emit (.sshError "Terminal requested before authentication")
  else
    let s := { s with term := request.term.getD s.term, dimensions := request.dimensions }
    let env := Environment.restrict s.config.ssh.envAllowlist s.env
    match s.shell ⟨s.term, s.dimensions⟩ env with
    | (s, .ok ()) => s.attach .shell
    | (s, .error f) => s.onStreamError f

def onExec (s : Session ρ) (request : ExecRequest) : Session ρ :=
  if s.phase ≠ .connected then
    s.emit (.sshError "Exec requires an authenticated session without an open stream")
  else
    let env := Environment.restrict s.config.ssh.envAllowlist (s.env ++ request.env)
    let terminal :=
      if request.pty then some ⟨request.term.getD s.term, request.dimensions⟩ else none
    match s.exec request.command terminal env with
    | (s, .ok ()) => s.attach (.exec (request.timeout.map (s.clock + ·)))
    | (s, .error f) => s.onStreamError f

def onResize (s : Session ρ) (d : Dimensions) : Session ρ :=
  match { s with dimensions := d }.resize d with
  | (s, .ok ()) => s
  | (s, .error f) => s.onStreamError f

def onData (s : Session ρ) (bytes : Octets) : Session ρ :=
  if s.phase ≠ .streaming then s
  else
    match s.write bytes with
    | (s, .ok ()) => s
    | (s, .error f) => s.onStreamError f

/-- The password that may be typed for the client. -/
def replayable? (s : Session ρ) : Option String :=
  (s.credentials.bind (·.password)).filter (!·.isEmpty)

def onReplay (s : Session ρ) : Session ρ :=
  if !s.permissions.allowReplay then s.emit (.sshError "Credential replay is not permitted")
  else
    match s.replayable? with
    | none => s.emit (.sshError "No password available to replay")
    | some password =>
        if s.phase ≠ .streaming then
          s.emit (.sshError "No open terminal to replay credentials into")
        else
          match s.write (Text.Utf8.encode (password ++ s.config.lineEnding).toList) with
          | (s, .ok ()) => s
          | (s, .error f) => (s.fail ("Failed to replay credentials: " ++ f.message)).teardown

def onControl (s : Session ρ) : ControlAction → Session ρ
  | .replayCredentials => s.onReplay
  | .reauth =>
      if !s.permissions.allowReauth then
        s.emit (.sshError "Reauthentication is not permitted")
      else ({ s with cached := none }.emit .reauth).teardown
  | .clearCredentials => { s with cached := none }
  | .disconnect => s.teardown

def handle (s : Session ρ) (message : Inbound) : Session ρ :=
  let s := s.note (.handled message)
  match message with
  | .error rejection => s.emit (.sshError rejection.text)
  | .ok (.auth request) => s.onAuth request
  | .ok (.terminal request) => s.onTerminal request
  | .ok (.resize d) => s.onResize d
  | .ok (.exec request) => s.onExec request
  | .ok (.control action) => s.onControl action
  | .ok (.data bytes) => s.onData bytes

/-! ### Streams -/

/-- A stream came to its end. The exit of a command is told to the client, which may go on with
another one; the end of a shell ends the session. -/
def onStreamClosed (s : Session ρ) : Session ρ :=
  let s := { s with receiver := none }
  match s.stream with
  | none => s
  | some stream =>
      let s := { s with stream := none }
      match stream.kind with
      | .exec _ =>
          let s := s.emit (.execExit stream.exitCode stream.exitSignal false)
          { s.closeStream with phase := .connected }
      | .shell =>
          match stream.exitSignal with
          | some signal =>
              s.onStreamError (.stream ("Shell terminated by signal " ++ signal))
          | none => s.teardown

def onStreamEvent (s : Session ρ) (event : Option StreamEvent) : Session ρ :=
  match event with
  | some (.data bytes) | some (.extendedData bytes) => s.emit (.data bytes)
  | some (.exitStatus code) =>
      { s with stream := s.stream.map fun st => { st with exitCode := some code } }
  | some (.exitSignal name) =>
      { s with stream := s.stream.map fun st => { st with exitSignal := some name } }
  | some .closed | none => s.onStreamClosed
  | some (.failed f) => s.onStreamError f

def onExpired (s : Session ρ) : Session ρ :=
  let s := (s.note .expired).dropStream.closeStream
  { s with phase := .connected }.emit (.execExit none none true)

end TerminalGateway.Session

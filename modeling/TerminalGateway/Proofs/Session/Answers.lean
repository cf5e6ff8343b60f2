import TerminalGateway.Proofs.Session.Endings

/-!
What becomes of a session that handles a message, case by case: one constructor for each way in
which a handler of an open session can go.
-/

namespace TerminalGateway.Session

variable {ρ : Type} [Remote ρ]

/-- Why a session does not do what a message asks for. -/
def objection? (s : Session ρ) : Inbound → Option String
  | .error rejection => some rejection.text
  | .ok (.terminal _) =>
      if s.phase = .connected ∨ s.phase = .streaming then none
      else some "Terminal requested before authentication"
  | .ok (.exec _) =>
      if s.phase = .connected then none
      else some "Exec requires an authenticated session without an open stream"
  | .ok (.control .reauth) =>
      if s.permissions.allowReauth then none else some "Reauthentication is not permitted"
  | .ok (.control .replayCredentials) =>
      if !s.permissions.allowReplay then some "Credential replay is not permitted"
      else if s.replayable? = none then some "No password available to replay"
      else if s.phase ≠ .streaming then some "No open terminal to replay credentials into"
      else none
  | _ => none

/-- Messages that come too late or too early and are passed over without a word. -/
def ignores (s : Session ρ) : Inbound → Bool
  | .ok (.terminal _) => s.phase = .streaming
  | .ok (.data _) => s.phase ≠ .streaming
  | _ => false

/-- The session without its connection, if it had one. -/
def parted (s : Session ρ) : Session ρ :=
  if s.phase = .connected ∨ s.phase = .streaming then
    { s with
      remote := Remote.hangUp s.remote
      stream := none
      receiver := none
      record := s.record ++ [.called .hangUp (.ok ())] }
  else s

/-- The session on its way to a server. -/
def bound (s : Session ρ) (r : AuthRequest) (c : Credentials) : Session ρ :=
  { s with
    term := r.term.getD s.term
    dimensions := r.dimensions.getD s.dimensions
    phase := .authenticating
    credentials := some c }

def fitted (s : Session ρ) (r : TerminalRequest) : Session ρ :=
  { s with term := r.term.getD s.term, dimensions := r.dimensions }

def execTerminal (s : Session ρ) (r : ExecRequest) : Option Terminal :=
  if r.pty then some ⟨r.term.getD s.term, r.dimensions⟩ else none

def streamEnv (s : Session ρ) (requested : Environment.Pairs) : Environment.Pairs :=
  Environment.restrict s.config.ssh.envAllowlist (s.env ++ requested)

/-- What is typed for the client when it asks for its password. -/
def replay (s : Session ρ) (password : String) : Octets :=
  Text.Utf8.encode (password ++ s.config.lineEnding).toList

/-- An operation of the server side, with what it left behind. -/
def did (s : Session ρ) (what : Call) (remote : ρ) (outcome : Outcome) : Session ρ :=
  { s with remote, record := s.record ++ [.called what outcome] }

/-- The session with the addresses of a target, of which nothing followed yet. -/
def vetted (s : Session ρ) (c : Credentials) (found : Except String (List Net.Address)) :
    Session ρ :=
  { s with lookup := none, record := s.record ++ [.vetted c found] }

inductive Vets (s : Session ρ) (c : Credentials) (found : Except String (List Net.Address)) :
    Session ρ → Prop
  | allowed (h : Net.judge s.config.ssh.allowedSubnets c.host found = .ok ()) :
      Vets s c found ((s.vetted c found).connect c)
  | refused {refusal : Net.TargetRefusal}
      (h : Net.judge s.config.ssh.allowedSubnets c.host found = .error refusal) :
      Vets s c found
        ((s.vetted c found).failing refusal.text (.sshError refusal.text)).ended

inductive Approaches (s : Session ρ) (c : Credentials) : Session ρ → Prop
  | unrestricted (h : s.config.ssh.allowedSubnets = []) : Approaches s c (s.connect c)
  | literal {a : Net.Address} {s' : Session ρ} (h : s.config.ssh.allowedSubnets ≠ [])
      (hl : Net.literal? c.host = some a) (hv : Vets s c (.ok [a]) s') : Approaches s c s'
  | named (h : s.config.ssh.allowedSubnets ≠ []) (hl : Net.literal? c.host = none) :
      Approaches s c { s with lookup := some c }

/-- What becomes of a session that handles a message. -/
inductive Answers (s : Session ρ) : Inbound → Session ρ → Prop
  | objected {m : Inbound} {text : String} (h : s.objection? m = some text) :
      Answers s m (s.emit (.sshError text))
  | ignored {m : Inbound} (h : s.ignores m = true) : Answers s m s
  | unauthenticated {r : AuthRequest} (h : s.resolve? r.credentials = none) :
      Answers s (.ok (.auth r))
        (s.parted.failing refreshAndRetry (.sshError refreshAndRetry)).ended
  | authenticating {r : AuthRequest} {c : Credentials} {s' : Session ρ}
      (h : s.resolve? r.credentials = some c) (ha : Approaches (s.parted.bound r c) c s') :
      Answers s (.ok (.auth r)) s'
  | shellOpened {r : TerminalRequest} {remote : ρ} (hp : s.phase = .connected)
      (h : Remote.shell s.remote ⟨(s.fitted r).term, r.dimensions⟩ (s.streamEnv []) =
        (remote, .ok ())) :
      Answers s (.ok (.terminal r))
        (((s.fitted r).did (.shell ⟨(s.fitted r).term, r.dimensions⟩ (s.streamEnv [])) remote
          (.ok ())).attach .shell)
  | shellFailed {r : TerminalRequest} {remote : ρ} {f : Failure} (hp : s.phase = .connected)
      (h : Remote.shell s.remote ⟨(s.fitted r).term, r.dimensions⟩ (s.streamEnv []) =
        (remote, .error f)) :
      Answers s (.ok (.terminal r))
        (((s.fitted r).did (.shell ⟨(s.fitted r).term, r.dimensions⟩ (s.streamEnv [])) remote
          (.error f)).broken f)
  | execOpened {r : ExecRequest} {remote : ρ} (hp : s.phase = .connected)
      (h : Remote.exec s.remote r.command (s.execTerminal r) (s.streamEnv r.env) =
        (remote, .ok ())) :
      Answers s (.ok (.exec r))
        ((s.did (.exec r.command (s.execTerminal r) (s.streamEnv r.env)) remote (.ok ())).attach
          (.exec (r.timeout.map (s.clock + ·))))
  | execFailed {r : ExecRequest} {remote : ρ} {f : Failure} (hp : s.phase = .connected)
      (h : Remote.exec s.remote r.command (s.execTerminal r) (s.streamEnv r.env) =
        (remote, .error f)) :
      Answers s (.ok (.exec r))
        ((s.did (.exec r.command (s.execTerminal r) (s.streamEnv r.env)) remote
          (.error f)).broken f)
  | resized {d : Dimensions} {remote : ρ} (h : Remote.resize s.remote d = (remote, .ok ())) :
      Answers s (.ok (.resize d)) ({ s with dimensions := d }.did (.resize d) remote (.ok ()))
  | resizeFailed {d : Dimensions} {remote : ρ} {f : Failure}
      (h : Remote.resize s.remote d = (remote, .error f)) :
      Answers s (.ok (.resize d))
        (({ s with dimensions := d }.did (.resize d) remote (.error f)).broken f)
  | wrote {bytes : Octets} {remote : ρ} (hp : s.phase = .streaming)
      (h : Remote.write s.remote bytes = (remote, .ok ())) :
      Answers s (.ok (.data bytes)) (s.did (.write bytes) remote (.ok ()))
  | writeFailed {bytes : Octets} {remote : ρ} {f : Failure} (hp : s.phase = .streaming)
      (h : Remote.write s.remote bytes = (remote, .error f)) :
      Answers s (.ok (.data bytes)) ((s.did (.write bytes) remote (.error f)).broken f)
  | replayed {password : String} {remote : ρ} (hr : s.permissions.allowReplay = true)
      (hw : s.replayable? = some password) (hp : s.phase = .streaming)
      (h : Remote.write s.remote (s.replay password) = (remote, .ok ())) :
      Answers s (.ok (.control .replayCredentials))
        (s.did (.write (s.replay password)) remote (.ok ()))
  | replayFailed {password : String} {remote : ρ} {f : Failure}
      (hr : s.permissions.allowReplay = true) (hw : s.replayable? = some password)
      (hp : s.phase = .streaming)
      (h : Remote.write s.remote (s.replay password) = (remote, .error f)) :
      Answers s (.ok (.control .replayCredentials))
        (((s.did (.write (s.replay password)) remote (.error f)).failing
          ("Failed to replay credentials: " ++ f.message)
          (.sshError ("Failed to replay credentials: " ++ f.message))).ended)
  | reauthed (h : s.permissions.allowReauth = true) :
      Answers s (.ok (.control .reauth)) (({ s with cached := none }.emit .reauth).ended)
  | forgot : Answers s (.ok (.control .clearCredentials)) { s with cached := none }
  | disconnected : Answers s (.ok (.control .disconnect)) s.ended

omit [Remote ρ] in
theorem Open.note {s : Session ρ} (h : s.Open) (e : Entry) : (s.note e).Open :=
  ⟨h.goesOn, h.faultless, h.registered⟩

theorem Open.parted {s : Session ρ} (h : s.Open) : s.parted.Open := by
  unfold Session.parted
  split <;> exact ⟨h.goesOn, h.faultless, h.registered⟩

theorem onResolved_of_ok {s : Session ρ} {c : Credentials}
    {found : Except String (List Net.Address)}
    (h : Net.judge s.config.ssh.allowedSubnets c.host found = .ok ()) :
    s.onResolved c found = (s.vetted c found).connect c := by
  simp only [Session.onResolved, Session.note, h]
  rfl

theorem onResolved_of_error {s : Session ρ} {c : Credentials}
    {found : Except String (List Net.Address)} {refusal : Net.TargetRefusal}
    (h : Net.judge s.config.ssh.allowedSubnets c.host found = .error refusal) :
    s.onResolved c found = ((s.vetted c found).fail refusal.text).teardown := by
  simp only [Session.onResolved, Session.note, h]
  rfl

theorem Open.onResolved {s : Session ρ} (h : s.Open) (c : Credentials)
    (found : Except String (List Net.Address)) : Vets s c found (s.onResolved c found) := by
  have ht : (s.vetted c found).Open := ⟨h.goesOn, h.faultless, h.registered⟩
  cases hj : Net.judge s.config.ssh.allowedSubnets c.host found with
  | ok _ =>
      rw [onResolved_of_ok hj]
      exact .allowed hj
  | error refusal =>
      rw [onResolved_of_error hj, ht.fail_teardown]
      exact .refused hj

theorem Open.approach {s : Session ρ} (h : s.Open) (c : Credentials) :
    Approaches s c (s.approach c) := by
  unfold Session.approach
  by_cases hn : s.config.ssh.allowedSubnets = []
  · simp only [hn, List.isEmpty_nil, if_true]
    exact .unrestricted hn
  · simp only [List.isEmpty_iff, hn, if_false]
    cases hl : Net.literal? c.host with
    | some a => exact .literal hn hl (h.onResolved c _)
    | none => exact .named hn hl

theorem resolve?_parted (s : Session ρ) (c : Credentials) :
    s.parted.resolve? c = s.resolve? c := by
  unfold Session.parted
  split <;> rfl

theorem onAuth_of_none {s : Session ρ} {r : AuthRequest}
    (h : s.resolve? r.credentials = none) :
    s.onAuth r = (s.parted.fail refreshAndRetry).teardown := by
  have hpart : (if s.phase = .connected ∨ s.phase = .streaming then s.dropStream.hangUp else s) =
      s.parted := rfl
  simp only [Session.onAuth, hpart, resolve?_parted, h]

theorem onAuth_of_some {s : Session ρ} {r : AuthRequest} {c : Credentials}
    (h : s.resolve? r.credentials = some c) : s.onAuth r = (s.parted.bound r c).approach c := by
  have hpart : (if s.phase = .connected ∨ s.phase = .streaming then s.dropStream.hangUp else s) =
      s.parted := rfl
  simp only [Session.onAuth, hpart, resolve?_parted, h]
  rfl

theorem Open.onAuth {s : Session ρ} (h : s.Open) (r : AuthRequest) :
    Answers s (.ok (.auth r)) (s.onAuth r) := by
  cases hc : s.resolve? r.credentials with
  | none =>
      rw [onAuth_of_none hc, h.parted.fail_teardown]
      exact .unauthenticated hc
  | some c =>
      have hb : (s.parted.bound r c).Open := ⟨rfl, h.parted.faultless, h.parted.registered⟩
      rw [onAuth_of_some hc]
      exact .authenticating hc (hb.approach c)

omit [Remote ρ] in
theorem streamEnv_nil (s : Session ρ) :
    s.streamEnv [] = Environment.restrict s.config.ssh.envAllowlist s.env := by
  simp [streamEnv]

/-- What is done about the outcome of an operation. -/
def concluding (k : Session ρ → Session ρ) (g : Session ρ → Failure → Session ρ) :
    Session ρ × Outcome → Session ρ
  | (u, .ok ()) => k u
  | (u, .error f) => g u f

/-- Every operation with an outcome ends in one of two ways. -/
theorem call_cases {s t : Session ρ} {m : Inbound} {what : Call} {result : ρ × Outcome}
    {k : Session ρ → Session ρ} {g : Session ρ → Failure → Session ρ}
    (hok : ∀ remote, result = (remote, .ok ()) → Answers s m (k (t.did what remote (.ok ()))))
    (herr : ∀ remote f, result = (remote, .error f) →
      Answers s m (g (t.did what remote (.error f)) f)) :
    Answers s m (concluding k g (t.call what result)) := by
  obtain ⟨remote, f | ⟨⟩⟩ := result
  · exact herr remote f rfl
  · exact hok remote rfl

omit [Remote ρ] in
theorem Open.did {s : Session ρ} (h : s.Open) (what : Call) (remote : ρ) (outcome : Outcome) :
    (s.did what remote outcome).Open :=
  ⟨h.goesOn, h.faultless, h.registered⟩

theorem onTerminal_of_connected {s : Session ρ} (h : s.phase = .connected) (r : TerminalRequest) :
    s.onTerminal r = concluding (·.attach .shell) onStreamError
      ((s.fitted r).call (.shell ⟨(s.fitted r).term, r.dimensions⟩ (s.streamEnv []))
        (Remote.shell s.remote ⟨(s.fitted r).term, r.dimensions⟩ (s.streamEnv []))) := by
  have hs : s.phase ≠ .streaming := by simp [h]
  rw [Session.onTerminal, if_neg hs, if_neg (fun hn => hn h)]
  simp only [streamEnv_nil]
  rfl

theorem Open.onTerminal {s : Session ρ} (h : s.Open) (r : TerminalRequest) :
    Answers s (.ok (.terminal r)) (s.onTerminal r) := by
  by_cases hs : s.phase = .streaming
  · simp only [Session.onTerminal, hs, if_true]
    exact .ignored (by simp [ignores, hs])
  by_cases hp : s.phase = .connected
  · have hf : (s.fitted r).Open := ⟨h.goesOn, h.faultless, h.registered⟩
    rw [onTerminal_of_connected hp]
    refine call_cases ?_ ?_
    · intro remote hx
      exact .shellOpened hp hx
    · intro remote f hx
      rw [(hf.did _ remote _).onStreamError]
      exact .shellFailed hp hx
  · simp only [Session.onTerminal, hs, hp, if_false, ne_eq, not_false_eq_true, if_true]
    exact .objected (by simp [objection?, hs, hp])

theorem onExec_of_connected {s : Session ρ} (h : s.phase = .connected) (r : ExecRequest) :
    s.onExec r =
      concluding (fun u => u.attach (.exec (r.timeout.map (u.clock + ·)))) onStreamError
        (s.call (.exec r.command (s.execTerminal r) (s.streamEnv r.env))
          (Remote.exec s.remote r.command (s.execTerminal r) (s.streamEnv r.env))) := by
  simp only [Session.onExec, h, ne_eq, not_true_eq_false, if_false]
  rfl

theorem Open.onExec {s : Session ρ} (h : s.Open) (r : ExecRequest) :
    Answers s (.ok (.exec r)) (s.onExec r) := by
  by_cases hp : s.phase = .connected
  · rw [onExec_of_connected hp]
    refine call_cases ?_ ?_
    · intro remote hx
      exact .execOpened hp hx
    · intro remote f hx
      rw [(h.did _ remote _).onStreamError]
      exact .execFailed hp hx
  · simp only [Session.onExec, hp, ne_eq, not_false_eq_true, if_true]
    exact .objected (by simp [objection?, hp])

theorem onResize_eq (s : Session ρ) (d : Dimensions) :
    s.onResize d = concluding id onStreamError
      ({ s with dimensions := d }.call (.resize d) (Remote.resize s.remote d)) := rfl

theorem Open.onResize {s : Session ρ} (h : s.Open) (d : Dimensions) :
    Answers s (.ok (.resize d)) (s.onResize d) := by
  have hd : ({ s with dimensions := d } : Session ρ).Open := ⟨h.goesOn, h.faultless, h.registered⟩
  rw [onResize_eq]
  refine call_cases ?_ ?_
  · intro remote hx
    exact .resized hx
  · intro remote f hx
    rw [(hd.did _ remote _).onStreamError]
    exact .resizeFailed hx

theorem onData_of_streaming {s : Session ρ} (h : s.phase = .streaming) (bytes : Octets) :
    s.onData bytes = concluding id onStreamError
      (s.call (.write bytes) (Remote.write s.remote bytes)) := by
  simp only [Session.onData, h, ne_eq, not_true_eq_false, if_false]
  rfl

theorem Open.onData {s : Session ρ} (h : s.Open) (bytes : Octets) :
    Answers s (.ok (.data bytes)) (s.onData bytes) := by
  by_cases hp : s.phase = .streaming
  · rw [onData_of_streaming hp]
    refine call_cases ?_ ?_
    · intro remote hx
      exact .wrote hp hx
    · intro remote f hx
      rw [(h.did _ remote _).onStreamError]
      exact .writeFailed hp hx
  · simp only [Session.onData, hp, ne_eq, not_false_eq_true, if_true]
    exact .ignored (by simp [ignores, hp])

theorem onReplay_of_objection {s : Session ρ} {text : String}
    (h : s.objection? (.ok (.control .replayCredentials)) = some text) :
    s.onReplay = s.emit (.sshError text) := by
  unfold Session.onReplay
  cases hr : s.permissions.allowReplay with
  | false => simp_all [objection?]
  | true =>
      cases hw : s.replayable? with
      | none => simp_all [objection?]
      | some password => by_cases hp : s.phase = .streaming <;> simp_all [objection?]

omit [Remote ρ] in
/-- A password is typed if nothing speaks against it. -/
theorem objection?_replay_eq_none {s : Session ρ}
    (h : s.objection? (.ok (.control .replayCredentials)) = none) :
    s.permissions.allowReplay = true ∧
      ∃ password, s.replayable? = some password ∧ s.phase = .streaming := by
  cases hr : s.permissions.allowReplay with
  | false => simp [objection?, hr] at h
  | true =>
      cases hw : s.replayable? with
      | none => simp [objection?, hr, hw] at h
      | some password =>
          by_cases hp : s.phase = .streaming
          · exact ⟨rfl, password, rfl, hp⟩
          · simp [objection?, hr, hw, hp] at h

theorem onReplay_of_streaming {s : Session ρ} (hr : s.permissions.allowReplay = true)
    {password : String} (hw : s.replayable? = some password) (hp : s.phase = .streaming) :
    s.onReplay = concluding id
      (fun u f => (u.fail ("Failed to replay credentials: " ++ f.message)).teardown)
      (s.call (.write (s.replay password)) (Remote.write s.remote (s.replay password))) := by
  simp only [Session.onReplay, hr, hw, hp, ne_eq, not_true_eq_false, if_false, Bool.not_true,
    Bool.false_eq_true]
  rfl

theorem Open.onReplay {s : Session ρ} (h : s.Open) :
    Answers s (.ok (.control .replayCredentials)) s.onReplay := by
  cases ho : s.objection? (.ok (.control .replayCredentials)) with
  | some text =>
      rw [onReplay_of_objection ho]
      exact .objected ho
  | none =>
      obtain ⟨hr, password, hw, hp⟩ := objection?_replay_eq_none ho
      rw [onReplay_of_streaming hr hw hp]
      refine call_cases ?_ ?_
      · intro remote hx
        exact .replayed hr hw hp hx
      · intro remote f hx
        rw [(h.did _ remote _).fail_teardown]
        exact .replayFailed hr hw hp hx

theorem Open.onControl {s : Session ρ} (h : s.Open) (action : ControlAction) :
    Answers s (.ok (.control action)) (s.onControl action) := by
  cases action with
  | replayCredentials => exact h.onReplay
  | reauth =>
      cases hr : s.permissions.allowReauth with
      | false =>
          simp only [Session.onControl, hr, Bool.not_false, if_true]
          exact .objected (by simp [objection?, hr])
      | true =>
          have hend := teardown_eq_ended (s := { s with cached := none }.emit .reauth) h.goesOn
            h.registered
          simp only [Session.onControl, hr, Bool.not_true, Bool.false_eq_true, if_false, hend]
          exact .reauthed hr
  | clearCredentials => exact .forgot
  | disconnect =>
      simp only [Session.onControl, h.teardown]
      exact .disconnected

theorem Open.handle {s : Session ρ} (h : s.Open) (m : Inbound) :
    Answers (s.note (.handled m)) m (s.handle m) := by
  have hn : (s.note (.handled m)).Open := h.note _
  match m with
  | .error rejection => exact .objected rfl
  | .ok (.auth r) => exact hn.onAuth r
  | .ok (.terminal r) => exact hn.onTerminal r
  | .ok (.resize d) => exact hn.onResize d
  | .ok (.exec r) => exact hn.onExec r
  | .ok (.control action) => exact hn.onControl action
  | .ok (.data bytes) => exact hn.onData bytes

end TerminalGateway.Session

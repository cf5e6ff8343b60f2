import TerminalGateway.Proofs.Session.Answers
import TerminalGateway.Session.Step

/-!
What one stimulus makes of a session, case by case. Every other statement about runs rests on
these cases and does not open the handlers again.
-/

namespace TerminalGateway.Session

variable {ρ : Type} [Remote ρ]

/-! ### Streams -/

/-- A command is over, and the session may go on with another one. -/
def released (s : Session ρ) (es : List Entry) : Session ρ :=
  { s with
    remote := Remote.closeStream s.remote
    phase := .connected
    stream := none
    receiver := none
    record := s.record ++ es }

/-- What becomes of a session that takes something off its stream. -/
inductive Receives (s : Session ρ) : Option StreamEvent → Session ρ → Prop
  | output {bytes : Octets} : Receives s (some (.data bytes)) (s.emit (.data bytes))
  | extended {bytes : Octets} : Receives s (some (.extendedData bytes)) (s.emit (.data bytes))
  | exitStatus {st : OpenStream} {code : Nat} (h : s.stream = some st) :
      Receives s (some (.exitStatus code))
        { s with stream := some { st with exitCode := some code } }
  | exitSignal {st : OpenStream} {name : String} (h : s.stream = some st) :
      Receives s (some (.exitSignal name))
        { s with stream := some { st with exitSignal := some name } }
  | execClosed {e : Option StreamEvent} {st : OpenStream} {deadline : Option Nat}
      (he : e = none ∨ e = some .closed) (h : s.stream = some st) (hk : st.kind = .exec deadline) :
      Receives s e (s.released
        [.sent (.execExit st.exitCode st.exitSignal false), .called .closeStream (.ok ())])
  | shellSignalled {e : Option StreamEvent} {st : OpenStream} {name : String}
      (he : e = none ∨ e = some .closed) (h : s.stream = some st) (hk : st.kind = .shell)
      (hs : st.exitSignal = some name) :
      Receives s e (s.broken (.stream ("Shell terminated by signal " ++ name)))
  | shellClosed {e : Option StreamEvent} {st : OpenStream}
      (he : e = none ∨ e = some .closed) (h : s.stream = some st) (hk : st.kind = .shell)
      (hs : st.exitSignal = none) : Receives s e s.ended
  | failed {f : Failure} : Receives s (some (.failed f)) (s.broken f)

theorem onStreamClosed_of_exec {s : Session ρ} {st : OpenStream} {deadline : Option Nat}
    (hs : s.stream = some st) (hk : st.kind = .exec deadline) :
    s.onStreamClosed = s.released
      [.sent (.execExit st.exitCode st.exitSignal false), .called .closeStream (.ok ())] := by
  simp only [Session.onStreamClosed, hs, hk]
  rw [released, List.append_cons]
  rfl

theorem onStreamClosed_of_signal {s : Session ρ} {st : OpenStream} {name : String}
    (hs : s.stream = some st) (hk : st.kind = .shell) (hx : st.exitSignal = some name) :
    s.onStreamClosed =
      s.dropStream.onStreamError (.stream ("Shell terminated by signal " ++ name)) := by
  simp only [Session.onStreamClosed, hs, hk, hx]
  rfl

theorem onStreamClosed_of_shell {s : Session ρ} {st : OpenStream} (hs : s.stream = some st)
    (hk : st.kind = .shell) (hx : st.exitSignal = none) :
    s.onStreamClosed = s.dropStream.teardown := by
  simp only [Session.onStreamClosed, hs, hk, hx]
  rfl

omit [Remote ρ] in
theorem Open.dropStream {s : Session ρ} (h : s.Open) : s.dropStream.Open :=
  ⟨h.goesOn, h.faultless, h.registered⟩

theorem Open.onStreamClosed {s : Session ρ} {e : Option StreamEvent} {st : OpenStream}
    (h : s.Open) (he : e = none ∨ e = some .closed) (hs : s.stream = some st) :
    Receives s e s.onStreamClosed := by
  cases hk : st.kind with
  | exec deadline =>
      rw [onStreamClosed_of_exec hs hk]
      exact .execClosed he hs hk
  | shell =>
      cases hx : st.exitSignal with
      | some name =>
          rw [onStreamClosed_of_signal hs hk hx, h.dropStream.onStreamError]
          exact .shellSignalled he hs hk hx
      | none =>
          rw [onStreamClosed_of_shell hs hk hx, h.dropStream.teardown]
          exact .shellClosed he hs hk hx

theorem Open.onStreamEvent {s : Session ρ} {st : OpenStream} (h : s.Open)
    (hs : s.stream = some st) (e : Option StreamEvent) : Receives s e (s.onStreamEvent e) := by
  match e with
  | some (.data bytes) => exact .output
  | some (.extendedData bytes) => exact .extended
  | some (.exitStatus code) =>
      simp only [Session.onStreamEvent, hs, Option.map_some]
      exact .exitStatus hs
  | some (.exitSignal name) =>
      simp only [Session.onStreamEvent, hs, Option.map_some]
      exact .exitSignal hs
  | some .closed => exact h.onStreamClosed (.inr rfl) hs
  | none => exact h.onStreamClosed (.inl rfl) hs
  | some (.failed f) =>
      simp only [Session.onStreamEvent, h.onStreamError]
      exact .failed

/-! ### Steps -/

/-- Whether a stimulus makes a difference. -/
def heeds (s : Session ρ) : Stimulus → Bool
  | .elapse => true
  | .message _ | .departed => s.isHearing
  | .resolved _ => !s.isClosing && s.lookup.isSome
  | .prompt _ | .settle => !s.isClosing && s.lookup.isNone && s.attempt.isSome
  | .resume => !s.isClosing && s.lookup.isNone && s.attempt.isNone && !s.backlog.isEmpty
  | .stream _ => s.isListening && s.receiver.isSome
  | .countdown (.value _) => s.isListening
  | .countdown (.lagged _) => false
  | .expire => s.isListening && s.isDue

omit [Remote ρ] in
theorem isListening_iff {s : Session ρ} : s.isListening = true ↔
    s.isClosing = false ∧ s.lookup = none ∧ s.attempt = none ∧ s.backlog = [] := by
  simp [isListening, and_assoc]

/-- The outcome of an attempt to connect is known. -/
def settled (s : Session ρ) (remote : ρ) (outcome : Outcome) : Session ρ :=
  { s with remote, attempt := none, record := s.record ++ [.settled outcome] }

def welcome (permissions : Permissions) (label : String) : List Entry :=
  [.sent (.authResult true none), .sent (.permissions permissions), .sent (.footer label),
    .sent (.getTerminal true), .retargeted label]

/-- The connection is there, and client and coordinator know. -/
def welcomed (s : Session ρ) (c : Credentials) : Session ρ :=
  { s with
    phase := .connected
    everConnected := true
    record := s.record ++ welcome s.permissions c.label }

omit [Remote ρ] in
theorem Open.onConnected {s : Session ρ} (h : s.Open) (c : Credentials) :
    s.onConnected c = s.welcomed c := by
  have hr : ∀ (t : Session ρ), t.registered = s.registered →
      (if t.registered then t.note (.retargeted c.label) else t) = t.note (.retargeted c.label) :=
    fun t ht => if_pos (ht.trans h.registered)
  unfold Session.onConnected welcomed welcome
  rw [List.append_cons, List.append_cons, List.append_cons, List.append_cons]
  exact hr _ rfl

/-- What a stimulus makes of a session that heeds it. -/
inductive Moves (s : Session ρ) : Stimulus → Session ρ → Prop
  | answered {m : Inbound} {s' : Session ρ} (h : s.isListening = true)
      (ha : Answers (s.note (.handled m)) m s') : Moves s (.message m) s'
  | resumed {m : Inbound} {rest : List Inbound} {s' : Session ρ} (hl : s.lookup = none)
      (ha : s.attempt = none) (hb : s.backlog = m :: rest)
      (h : Answers ({ s with backlog := rest }.note (.handled m)) m s') : Moves s .resume s'
  | queued {m : Inbound} {c : Credentials} (hl : s.lookup = none)
      (ha : s.attempt = some ⟨c, false⟩) :
      Moves s (.message m) { s with backlog := s.backlog ++ [m] }
  | abandoned {c : Credentials} (hl : s.lookup = none) (ha : s.attempt = some ⟨c, false⟩) :
      Moves s .departed { s with attempt := some ⟨c, true⟩ }
  | prompted {a : Attempt} {p : InteractivePrompt} (hl : s.lookup = none)
      (ha : s.attempt = some a) : Moves s (.prompt p) (s.emit (.keyboardInteractive p))
  | connected {c : Credentials} {remote : ρ} (hl : s.lookup = none)
      (ha : s.attempt = some ⟨c, false⟩) (h : Remote.settle s.remote = (remote, .ok ())) :
      Moves s .settle ((s.settled remote (.ok ())).welcomed c)
  | rebuffed {c : Credentials} {remote : ρ} {f : Failure} (hl : s.lookup = none)
      (ha : s.attempt = some ⟨c, false⟩) (h : Remote.settle s.remote = (remote, .error f)) :
      Moves s .settle ((s.settled remote (.error f)).rebuffed c f)
  | givenUp {c : Credentials} {remote : ρ} {outcome : Outcome} (hl : s.lookup = none)
      (ha : s.attempt = some ⟨c, true⟩) (h : Remote.settle s.remote = (remote, outcome)) :
      Moves s .settle (s.settled remote outcome).ended
  | resolved {c : Credentials} {found : Except String (List Net.Address)} {s' : Session ρ}
      (hl : s.lookup = some c) (h : Vets s c found s') : Moves s (.resolved found) s'
  | departed (h : s.isListening = true) : Moves s .departed s.ended
  | received {n : Nat} {e : Option StreamEvent} {s' : Session ρ} (h : s.isListening = true)
      (hr : s.receiver = some n) (hs : Receives (s.note (.received n e)) e s') :
      Moves s (.stream e) s'
  | counted {remaining : Nat} (h : s.isListening = true) :
      Moves s (.countdown (.value remaining)) (s.emit (.countdown remaining))
  | expired (h : s.isListening = true) (hd : s.isDue = true) :
      Moves s .expire (s.released
        [.expired, .called .closeStream (.ok ()), .sent (.execExit none none true)])

/-- A session either takes no notice of a stimulus or moves in one of the ways above. -/
def Steps (s : Session ρ) (σ : Stimulus) : Prop :=
  s.heeds σ = false ∧ s.step σ = s ∨ Moves s σ (s.step σ)

theorem step_of_lookup {s : Session ρ} (hc : s.isClosing = false) {c : Credentials}
    (hl : s.lookup = some c) {σ : Stimulus} (hσ : σ ≠ .elapse) :
    s.step σ = s.stepLookingUp c σ := by
  simp [step, hσ, hc, hl]

theorem step_of_attempt {s : Session ρ} (hc : s.isClosing = false) {a : Attempt}
    (hl : s.lookup = none) (ha : s.attempt = some a) {σ : Stimulus} (hσ : σ ≠ .elapse) :
    s.step σ = s.stepConnecting a σ := by
  simp [step, hσ, hc, hl, ha]

theorem step_of_backlog {s : Session ρ} (hc : s.isClosing = false) {m : Inbound}
    {rest : List Inbound} (hl : s.lookup = none) (ha : s.attempt = none)
    (hb : s.backlog = m :: rest) {σ : Stimulus} (hσ : σ ≠ .elapse) :
    s.step σ = if σ = .resume then { s with backlog := rest }.handle m else s := by
  simp [step, hσ, hc, hl, ha, hb]

theorem step_of_listening {s : Session ρ} (hc : s.isClosing = false) (hl : s.lookup = none)
    (ha : s.attempt = none) (hb : s.backlog = []) {σ : Stimulus} (hσ : σ ≠ .elapse) :
    s.step σ = s.stepListening σ := by
  simp [step, hσ, hc, hl, ha, hb]

theorem onExpired_eq (s : Session ρ) :
    s.onExpired = s.released
      [.expired, .called .closeStream (.ok ()), .sent (.execExit none none true)] := by
  rw [released, List.append_cons, List.append_cons]
  rfl

theorem Open.steps_lookingUp {s : Session ρ} (h : s.Open) {c : Credentials}
    (hl : s.lookup = some c) {σ : Stimulus} (hσ : σ ≠ .elapse) : s.Steps σ := by
  rw [Steps, step_of_lookup h.goesOn hl hσ]
  cases σ with
  | resolved found => exact .inr (.resolved hl (h.onResolved c found))
  | elapse => exact absurd rfl hσ
  | countdown r => cases r <;> exact .inl ⟨by simp [heeds, isListening, hl], rfl⟩
  | message _ | departed | stream _ | prompt _ | settle | resume | expire =>
      exact .inl ⟨by simp [heeds, isHearing, isListening, hl], rfl⟩

theorem Open.steps_connecting {s : Session ρ} (h : s.Open) {a : Attempt} (hl : s.lookup = none)
    (ha : s.attempt = some a) {σ : Stimulus} (hσ : σ ≠ .elapse) : s.Steps σ := by
  rw [Steps, step_of_attempt h.goesOn hl ha hσ]
  obtain ⟨c, gone⟩ := a
  cases σ with
  | elapse => exact absurd rfl hσ
  | message m =>
      cases gone with
      | true => exact .inl ⟨by simp [heeds, isHearing, hl, ha], rfl⟩
      | false => exact .inr (.queued hl ha)
  | departed =>
      cases gone with
      | true =>
          -- a client that has left cannot leave again
          refine .inl ⟨by simp [heeds, isHearing, hl, ha], ?_⟩
          simp only [stepConnecting, ← ha]
      | false => exact .inr (.abandoned hl ha)
  | prompt p => exact .inr (.prompted hl ha)
  | settle =>
      refine .inr ?_
      obtain ⟨⟨remote, outcome⟩, hx⟩ : ∃ result, Remote.settle s.remote = result := ⟨_, rfl⟩
      have ho : (s.settled remote outcome).Open := ⟨h.goesOn, h.faultless, h.registered⟩
      cases gone with
      | true =>
          have heq : s.stepConnecting ⟨c, true⟩ .settle = (s.settled remote outcome).teardown := by
            simp only [stepConnecting, onSettled, hx]
            rfl
          rw [heq, ho.teardown]
          exact .givenUp hl ha hx
      | false =>
          cases outcome with
          | ok done =>
              have heq : s.stepConnecting ⟨c, false⟩ .settle =
                  (s.settled remote (.ok done)).onConnected c := by
                simp only [stepConnecting, onSettled, hx]
                rfl
              rw [heq, ho.onConnected]
              exact .connected hl ha hx
          | error f =>
              have heq : s.stepConnecting ⟨c, false⟩ .settle =
                  (s.settled remote (.error f)).onConnectFailed c f := by
                simp only [stepConnecting, onSettled, hx]
                rfl
              rw [heq, ho.onConnectFailed]
              exact .rebuffed hl ha hx
  | countdown r => cases r <;> exact .inl ⟨by simp [heeds, isListening, ha], rfl⟩
  | stream _ | resolved _ | resume | expire =>
      exact .inl ⟨by simp [heeds, isListening, hl, ha], rfl⟩

theorem Open.steps_resuming {s : Session ρ} (h : s.Open) {m : Inbound} {rest : List Inbound}
    (hl : s.lookup = none) (ha : s.attempt = none) (hb : s.backlog = m :: rest) {σ : Stimulus}
    (hσ : σ ≠ .elapse) : s.Steps σ := by
  have ho : ({ s with backlog := rest } : Session ρ).Open := ⟨h.goesOn, h.faultless, h.registered⟩
  rw [Steps, step_of_backlog h.goesOn hl ha hb hσ]
  cases σ with
  | resume => exact .inr (.resumed hl ha hb (ho.handle m))
  | elapse => exact absurd rfl hσ
  | countdown r => cases r <;> exact .inl ⟨by simp [heeds, isListening, hb], rfl⟩
  | message _ | departed | stream _ | prompt _ | settle | resolved _ | expire =>
      exact .inl ⟨by simp [heeds, isHearing, isListening, hl, ha, hb], rfl⟩

theorem Open.steps_listening {s : Session ρ} (h : s.Open)
    (hr : s.receiver.isSome = true → s.stream.isSome = true) (hl : s.lookup = none)
    (ha : s.attempt = none) (hb : s.backlog = []) {σ : Stimulus} (hσ : σ ≠ .elapse) :
    s.Steps σ := by
  have hi : s.isListening = true := by simp [isListening, h.goesOn, hl, ha, hb]
  rw [Steps, step_of_listening h.goesOn hl ha hb hσ]
  cases σ with
  | elapse => exact absurd rfl hσ
  | message m => exact .inr (.answered hi (h.handle m))
  | departed =>
      simp only [stepListening, h.teardown]
      exact .inr (.departed hi)
  | stream e =>
      cases hn : s.receiver with
      | none => exact .inl ⟨by simp [heeds, hn], by simp [stepListening, hn]⟩
      | some n =>
          obtain ⟨st, hst⟩ := Option.isSome_iff_exists.mp (hr (by simp [hn]))
          simp only [stepListening, hn]
          exact .inr (.received hi hn ((h.note _).onStreamEvent hst e))
  | countdown r =>
      cases r with
      | value remaining => exact .inr (.counted hi)
      | lagged _ => exact .inl ⟨rfl, rfl⟩
  | expire =>
      cases hd : s.isDue with
      | true =>
          simp only [stepListening, hd, if_true, onExpired_eq]
          exact .inr (.expired hi hd)
      | false => exact .inl ⟨by simp [heeds, hd], by simp [stepListening, hd]⟩
  | prompt _ | settle | resolved _ | resume =>
      exact .inl ⟨by simp [heeds, hl, ha, hb], rfl⟩

theorem Open.steps {s : Session ρ} (h : s.Open)
    (hr : s.receiver.isSome = true → s.stream.isSome = true) {σ : Stimulus} (hσ : σ ≠ .elapse) :
    s.Steps σ := by
  cases hl : s.lookup with
  | some c => exact h.steps_lookingUp hl hσ
  | none =>
      cases ha : s.attempt with
      | some a => exact h.steps_connecting hl ha hσ
      | none =>
          cases hb : s.backlog with
          | cons m rest => exact h.steps_resuming hl ha hb hσ
          | nil => exact h.steps_listening hr hl ha hb hσ

theorem step_elapse (s : Session ρ) : s.step .elapse = { s with clock := s.clock + 1 } := by
  simp [step]

theorem step_of_isClosing {s : Session ρ} (hc : s.isClosing = true) {σ : Stimulus}
    (hσ : σ ≠ .elapse) : s.step σ = s := by
  simp [step, hc, hσ]

omit [Remote ρ] in
theorem heeds_of_isClosing {s : Session ρ} (hc : s.isClosing = true) {σ : Stimulus}
    (hσ : σ ≠ .elapse) : s.heeds σ = false := by
  cases σ with
  | elapse => exact absurd rfl hσ
  | countdown r => cases r <;> simp [heeds, isListening, hc]
  | message _ | departed | stream _ | prompt _ | settle | resume | expire | resolved _ =>
      simp [heeds, isHearing, isListening, hc]

end TerminalGateway.Session

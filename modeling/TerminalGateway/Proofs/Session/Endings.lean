import TerminalGateway.Session.Handlers

/-!
How sessions end. A session that has not ended has told of no failure and still has its place
with the coordinator, so its end and each kind of failure take one form.
-/

namespace TerminalGateway.Session

variable {ρ : Type}

structure Open (s : Session ρ) : Prop where
  goesOn : s.isClosing = false
  faultless : s.firstError = none
  registered : s.registered = true

/-- What a session does last. -/
def farewell : List Entry := [.called .hangUp (.ok ()), .socketClosed, .left]

def keeping (s : Session ρ) (message : String) : Session ρ := { s with firstError := some message }

/-- A failure was kept, and the client was told with an event. -/
def failing (s : Session ρ) (message : String) (event : ServerEvent) : Session ρ :=
  { s with firstError := some message, record := s.record ++ [.sent event] }

def mayInvite (s : Session ρ) : Bool := s.permissions.allowReauth && !s.reauthOffered

def inviting (s : Session ρ) : Session ρ :=
  { s with reauthOffered := true, record := s.record ++ [.sent .reauth] }

theorem offerReauth_of_mayInvite {s : Session ρ} (h : s.mayInvite = true) :
    s.offerReauth = (s.inviting, true) := by
  simp only [mayInvite, Bool.and_eq_true, Bool.not_eq_true'] at h
  simp [offerReauth, inviting, emit, note, h]

theorem offerReauth_of_not_mayInvite {s : Session ρ} (h : s.mayInvite = false) :
    s.offerReauth = (s, false) := by
  cases hp : s.permissions.allowReauth <;> simp_all [offerReauth, mayInvite]

theorem recordError_first {s : Session ρ} (h : s.firstError = none) (message : String) :
    s.recordError message = (s.keeping message, true) := by
  simp [recordError, keeping, h]

theorem Open.fail {s : Session ρ} (h : s.Open) (message : String) :
    s.fail message = s.failing message (.sshError message) := by
  simp only [Session.fail, recordError_first h.faultless]
  rfl

variable [Remote ρ]

def ended (s : Session ρ) : Session ρ :=
  { s with
    remote := Remote.hangUp s.remote
    phase := .closed
    stream := none
    receiver := none
    registered := false
    record := s.record ++ farewell }

theorem teardown_eq_ended {s : Session ρ} (hc : s.isClosing = false) (hr : s.registered = true) :
    s.teardown = s.ended := by
  simp [teardown, hc, hr, ended, hangUp, note, dropStream, farewell]

theorem Open.teardown {s : Session ρ} (h : s.Open) : s.teardown = s.ended :=
  teardown_eq_ended h.goesOn h.registered

theorem Open.fail_teardown {s : Session ρ} (h : s.Open) (message : String) :
    (s.fail message).teardown = (s.failing message (.sshError message)).ended := by
  rw [h.fail]
  exact teardown_eq_ended h.goesOn h.registered

/-- A stream failed, or an operation on it did. -/
def broken (s : Session ρ) (f : Failure) : Session ρ :=
  let message := f.userMessage s.target.1 s.target.2
  if f.level = some .clientAuthentication ∧ s.mayInvite then (s.keeping message).inviting.ended
  else (s.failing message (.sshError message)).ended

theorem Open.onStreamError {s : Session ρ} (h : s.Open) (f : Failure) :
    s.onStreamError f = s.broken f := by
  have hend : ∀ t : Session ρ, t.isClosing = s.isClosing → t.registered = s.registered →
      t.teardown = t.ended := fun t hc hr =>
    teardown_eq_ended (hc.trans h.goesOn) (hr.trans h.registered)
  have hfirst : s.dropStream.firstError = none := h.faultless
  unfold Session.onStreamError broken
  simp only [recordError_first hfirst]
  by_cases hl : f.level = some .clientAuthentication
  · cases hi : s.mayInvite with
    | true =>
        simp only [hl, offerReauth_of_mayInvite (s := s.dropStream.keeping _) hi, if_true,
          and_self]
        exact hend _ rfl rfl
    | false =>
        simp only [hl, offerReauth_of_not_mayInvite (s := s.dropStream.keeping _) hi, if_true,
          if_false, and_false, Bool.false_eq_true]
        exact hend _ rfl rfl
  · simp only [hl, if_false, false_and, Bool.false_eq_true]
    exact hend _ rfl rfl

/-- An attempt to connect failed. -/
def rebuffed (s : Session ρ) (c : Credentials) (f : Failure) : Session ρ :=
  let message := f.userMessage c.host c.port
  let s := if f.kind.clearsCredentials then { s with cached := none } else s
  let s := s.failing message (.authResult false (some message))
  (if f.kind = .authentication ∧ s.mayInvite then s.inviting else s).ended

/-- A failed attempt ends the session with one word about the failure, and perhaps an invitation. -/
theorem exists_rebuffed (s : Session ρ) (c : Credentials) (f : Failure) :
    ∃ cached offered invitation, (cached = none ∨ cached = s.cached) ∧
      (invitation = [] ∨ invitation = [.sent .reauth]) ∧
      s.rebuffed c f = Session.ended
        { s with
          cached
          firstError := some (f.userMessage c.host c.port)
          reauthOffered := offered
          record := s.record ++
            .sent (.authResult false (some (f.userMessage c.host c.port))) :: invitation } := by
  unfold rebuffed
  dsimp only
  generalize hu : (if f.kind.clearsCredentials then { s with cached := none } else s) = u
  have hforget : u = { s with cached := u.cached } := by
    rw [← hu]
    split <;> rfl
  have hcached : u.cached = none ∨ u.cached = s.cached := by
    rw [← hu]
    split
    · exact .inl rfl
    · exact .inr rfl
  rw [hforget]
  split
  · exact ⟨u.cached, true, [.sent .reauth], hcached, .inr rfl, by simp [inviting, failing]⟩
  · exact ⟨u.cached, s.reauthOffered, [], hcached, .inl rfl, rfl⟩

theorem Open.onConnectFailed {s : Session ρ} (h : s.Open) (c : Credentials) (f : Failure) :
    s.onConnectFailed c f = s.rebuffed c f := by
  unfold Session.onConnectFailed rebuffed
  have ht : (if f.kind.clearsCredentials then { s with cached := none } else s).Open := by
    split <;> exact ⟨h.goesOn, h.faultless, h.registered⟩
  generalize (if f.kind.clearsCredentials then { s with cached := none } else s) = t at ht ⊢
  simp only [recordError_first ht.faultless]
  by_cases ha : f.kind = .authentication
  · cases hi : t.mayInvite with
    | true =>
        have hm : (t.failing (f.userMessage c.host c.port)
          (.authResult false (some (f.userMessage c.host c.port)))).mayInvite = true := hi
        simp only [ha, hm, offerReauth_of_mayInvite (s := (t.keeping _).emit _) hi, if_true,
          and_self]
        exact teardown_eq_ended ht.goesOn ht.registered
    | false =>
        have hm : (t.failing (f.userMessage c.host c.port)
          (.authResult false (some (f.userMessage c.host c.port)))).mayInvite = false := hi
        simp only [ha, hm, offerReauth_of_not_mayInvite (s := (t.keeping _).emit _) hi, if_true,
          if_false, and_false, Bool.false_eq_true]
        exact teardown_eq_ended ht.goesOn ht.registered
  · simp only [ha, if_false, false_and]
    exact teardown_eq_ended ht.goesOn ht.registered

end TerminalGateway.Session

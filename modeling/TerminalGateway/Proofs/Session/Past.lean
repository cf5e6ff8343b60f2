import TerminalGateway.Proofs.Session.Moves

/-!
A session with a longer past. What a session does depends on nothing that it did before but through
what that left behind, so its record is only ever added to.
-/

namespace TerminalGateway.Session

variable {ρ : Type}

/-- The session with more things done before all others. -/
def preceded (past : List Entry) (s : Session ρ) : Session ρ :=
  { s with record := past ++ s.record }

variable (past : List Entry) (s : Session ρ)

theorem note_preceded (e : Entry) : (s.preceded past).note e = (s.note e).preceded past := by
  simp [note, preceded]

theorem emit_preceded (e : ServerEvent) : (s.preceded past).emit e = (s.emit e).preceded past :=
  note_preceded past s _

theorem call_preceded (what : Call) (result : ρ × Outcome) :
    (s.preceded past).call what result =
      ((s.call what result).1.preceded past, (s.call what result).2) := by
  simp [call, note, preceded]

theorem recordError_preceded (message : String) :
    (s.preceded past).recordError message =
      ((s.recordError message).1.preceded past, (s.recordError message).2) := by
  cases h : s.firstError <;> simp [recordError, preceded, h]

theorem fail_preceded (message : String) :
    (s.preceded past).fail message = (s.fail message).preceded past := by
  cases h : s.firstError with
  | none => simp [fail, recordError, preceded, h, emit, note]
  | some _ => simp [fail, recordError, preceded, h]

theorem offerReauth_preceded :
    (s.preceded past).offerReauth = (s.offerReauth.1.preceded past, s.offerReauth.2) := by
  cases hi : s.mayInvite with
  | true =>
      have hp : (s.preceded past).mayInvite = true := hi
      rw [offerReauth_of_mayInvite hi, offerReauth_of_mayInvite hp]
      simp [inviting, preceded]
  | false =>
      have hp : (s.preceded past).mayInvite = false := hi
      rw [offerReauth_of_not_mayInvite hi, offerReauth_of_not_mayInvite hp]

theorem onConnected_preceded (c : Credentials) :
    (s.preceded past).onConnected c = (s.onConnected c).preceded past := by
  cases h : s.registered <;> simp [onConnected, preceded, emit, note, h]

variable [Remote ρ]

theorem connect_preceded (c : Credentials) :
    (s.preceded past).connect c = (s.connect c).preceded past := by
  simp [connect, note, preceded]

theorem teardown_preceded : (s.preceded past).teardown = s.teardown.preceded past := by
  have hp : (s.preceded past).isClosing = s.isClosing := rfl
  cases hc : s.isClosing with
  | true => simp only [teardown, hp, hc, if_true]
  | false =>
      simp only [teardown, hp, hc, Bool.false_eq_true, if_false]
      cases hr : s.registered <;> simp [preceded, hangUp, note, dropStream, hr]

theorem fail_teardown_preceded (message : String) :
    ((s.preceded past).fail message).teardown = (s.fail message).teardown.preceded past := by
  rw [fail_preceded, teardown_preceded]

theorem onStreamError_preceded (f : Failure) :
    (s.preceded past).onStreamError f = (s.onStreamError f).preceded past := by
  have hd : (s.preceded past).dropStream = s.dropStream.preceded past := rfl
  have ht : (s.dropStream.preceded past).target = s.dropStream.target := rfl
  simp only [onStreamError, hd, ht, recordError_preceded]
  generalize s.dropStream.recordError _ = result
  obtain ⟨t, first⟩ := result
  cases first with
  | false => exact teardown_preceded past t
  | true =>
      by_cases hl : f.level = some .clientAuthentication
      · simp only [hl, if_true, offerReauth_preceded]
        generalize t.offerReauth = invited
        obtain ⟨u, offered⟩ := invited
        cases offered with
        | true => exact teardown_preceded past u
        | false => simp only [Bool.false_eq_true, if_false, emit_preceded, teardown_preceded]
      · simp only [hl, Bool.false_eq_true, if_false, emit_preceded, teardown_preceded]

theorem onConnectFailed_preceded (c : Credentials) (f : Failure) :
    (s.preceded past).onConnectFailed c f = (s.onConnectFailed c f).preceded past := by
  have hf : (if f.kind.clearsCredentials then { s.preceded past with cached := none }
      else s.preceded past) =
        (if f.kind.clearsCredentials then { s with cached := none } else s).preceded past := by
    split <;> rfl
  simp only [onConnectFailed, hf, recordError_preceded]
  generalize Session.recordError _ _ = result
  obtain ⟨t, first⟩ := result
  cases first with
  | false =>
      by_cases hk : f.kind = .authentication
      · simp only [hk, if_true, offerReauth_preceded, teardown_preceded]
      · simp only [hk, if_false, teardown_preceded]
  | true =>
      by_cases hk : f.kind = .authentication
      · simp only [hk, if_true, emit_preceded, offerReauth_preceded, teardown_preceded]
      · simp only [hk, if_false, emit_preceded, teardown_preceded]

theorem onResolved_preceded (c : Credentials) (found : Except String (List Net.Address)) :
    (s.preceded past).onResolved c found = (s.onResolved c found).preceded past := by
  have hv : (s.preceded past).vetted c found = (s.vetted c found).preceded past := by
    simp [vetted, preceded]
  cases hj : Net.judge s.config.ssh.allowedSubnets c.host found with
  | ok _ =>
      rw [onResolved_of_ok hj, onResolved_of_ok (s := s.preceded past) hj, hv, connect_preceded]
  | error refusal =>
      rw [onResolved_of_error hj, onResolved_of_error (s := s.preceded past) hj, hv,
        fail_teardown_preceded]

theorem approach_preceded (c : Credentials) :
    (s.preceded past).approach c = (s.approach c).preceded past := by
  have hc : (s.preceded past).config = s.config := rfl
  simp only [approach, hc]
  split
  · exact connect_preceded past s c
  · split
    · exact onResolved_preceded past s c _
    · rfl

theorem parted_preceded : (s.preceded past).parted = s.parted.preceded past := by
  have hp : (s.preceded past).phase = s.phase := rfl
  simp only [parted, hp]
  split
  · simp [preceded]
  · rfl

theorem onAuth_preceded (r : AuthRequest) :
    (s.preceded past).onAuth r = (s.onAuth r).preceded past := by
  cases hr : s.resolve? r.credentials with
  | none =>
      rw [onAuth_of_none hr, onAuth_of_none (s := s.preceded past) hr, parted_preceded,
        fail_teardown_preceded]
  | some c =>
      rw [onAuth_of_some hr, onAuth_of_some (s := s.preceded past) hr, parted_preceded]
      exact approach_preceded past (s.parted.bound r c) c

omit [Remote ρ] in
/-- An operation with an outcome, and what is done about it. -/
theorem concluding_preceded {k : Session ρ → Session ρ} {g : Session ρ → Failure → Session ρ}
    (hk : ∀ u, k (u.preceded past) = (k u).preceded past)
    (hg : ∀ u f, g (u.preceded past) f = (g u f).preceded past) (what : Call)
    (result : ρ × Outcome) :
    concluding k g ((s.preceded past).call what result) =
      (concluding k g (s.call what result)).preceded past := by
  rw [call_preceded]
  obtain ⟨remote, f | ⟨⟩⟩ := result
  · exact hg _ f
  · exact hk _

theorem onTerminal_preceded (r : TerminalRequest) :
    (s.preceded past).onTerminal r = (s.onTerminal r).preceded past := by
  by_cases hp : s.phase = .connected
  · rw [onTerminal_of_connected hp, onTerminal_of_connected (s := s.preceded past) hp]
    refine concluding_preceded past (s.fitted r) (fun u => ?_) (fun u f => ?_) _ _
    · rfl
    · exact onStreamError_preceded past u f
  · have hq : (s.preceded past).phase = s.phase := rfl
    simp only [onTerminal, hq, hp, ne_eq, not_false_eq_true, if_true]
    split
    · rfl
    · exact emit_preceded past s _

theorem onExec_preceded (r : ExecRequest) :
    (s.preceded past).onExec r = (s.onExec r).preceded past := by
  by_cases hp : s.phase = .connected
  · rw [onExec_of_connected hp, onExec_of_connected (s := s.preceded past) hp]
    refine concluding_preceded past s (fun u => ?_) (fun u f => ?_) _ _
    · rfl
    · exact onStreamError_preceded past u f
  · have hq : (s.preceded past).phase = s.phase := rfl
    simp only [onExec, hq, hp, ne_eq, not_false_eq_true, if_true]
    exact emit_preceded past s _

theorem onResize_preceded (d : Dimensions) :
    (s.preceded past).onResize d = (s.onResize d).preceded past := by
  rw [onResize_eq, onResize_eq]
  refine concluding_preceded past { s with dimensions := d } (fun u => ?_) (fun u f => ?_) _ _
  · rfl
  · exact onStreamError_preceded past u f

theorem onData_preceded (bytes : Octets) :
    (s.preceded past).onData bytes = (s.onData bytes).preceded past := by
  by_cases hp : s.phase = .streaming
  · rw [onData_of_streaming hp, onData_of_streaming (s := s.preceded past) hp]
    refine concluding_preceded past s (fun u => ?_) (fun u f => ?_) _ _
    · rfl
    · exact onStreamError_preceded past u f
  · have hq : (s.preceded past).phase = s.phase := rfl
    simp only [onData, hq, hp, ne_eq, not_false_eq_true, if_true]

theorem onReplay_preceded : (s.preceded past).onReplay = s.onReplay.preceded past := by
  have ho' : (s.preceded past).objection? (.ok (.control .replayCredentials)) =
      s.objection? (.ok (.control .replayCredentials)) := rfl
  cases ho : s.objection? (.ok (.control .replayCredentials)) with
  | some text =>
      rw [onReplay_of_objection ho, onReplay_of_objection (ho'.trans ho)]
      exact emit_preceded past s _
  | none =>
      obtain ⟨hr, password, hw, hp⟩ := objection?_replay_eq_none ho
      rw [onReplay_of_streaming hr hw hp, onReplay_of_streaming (s := s.preceded past) hr hw hp]
      refine concluding_preceded past s (fun u => ?_) (fun u f => ?_) _ _
      · rfl
      · exact fail_teardown_preceded past u _

theorem onControl_preceded (action : ControlAction) :
    (s.preceded past).onControl action = (s.onControl action).preceded past := by
  cases action with
  | replayCredentials => exact onReplay_preceded past s
  | clearCredentials => rfl
  | disconnect => exact teardown_preceded past s
  | reauth =>
      have hp : (s.preceded past).permissions = s.permissions := rfl
      simp only [onControl, hp]
      split
      · exact emit_preceded past s _
      · rw [← teardown_preceded, ← emit_preceded]
        rfl

theorem handle_preceded (m : Inbound) :
    (s.preceded past).handle m = (s.handle m).preceded past := by
  simp only [handle, note_preceded]
  match m with
  | .error _ => exact emit_preceded past _ _
  | .ok (.auth r) => exact onAuth_preceded past _ r
  | .ok (.terminal r) => exact onTerminal_preceded past _ r
  | .ok (.resize d) => exact onResize_preceded past _ d
  | .ok (.exec r) => exact onExec_preceded past _ r
  | .ok (.control action) => exact onControl_preceded past _ action
  | .ok (.data bytes) => exact onData_preceded past _ bytes

theorem onSettled_preceded (a : Attempt) :
    (s.preceded past).onSettled a = (s.onSettled a).preceded past := by
  have hr : (s.preceded past).remote = s.remote := rfl
  simp only [onSettled, hr]
  generalize Remote.settle s.remote = result
  obtain ⟨remote, outcome⟩ := result
  have hn : ({ s.preceded past with remote, attempt := none } : Session ρ).note (.settled outcome) =
      (s.settled remote outcome).preceded past :=
    note_preceded past { s with remote, attempt := none } _
  rw [hn]
  split
  · exact teardown_preceded past _
  · cases outcome with
    | ok _ => exact onConnected_preceded past _ _
    | error f => exact onConnectFailed_preceded past _ _ f

theorem onStreamClosed_preceded :
    (s.preceded past).onStreamClosed = s.onStreamClosed.preceded past := by
  have hs : (s.preceded past).stream = s.stream := rfl
  simp only [onStreamClosed, hs]
  cases s.stream with
  | none => rfl
  | some stream =>
      simp only
      split
      · simp [preceded, emit, note, closeStream]
      · split
        · exact onStreamError_preceded past { s with receiver := none, stream := none } _
        · exact teardown_preceded past { s with receiver := none, stream := none }

theorem onStreamEvent_preceded (e : Option StreamEvent) :
    (s.preceded past).onStreamEvent e = (s.onStreamEvent e).preceded past := by
  match e with
  | some (.data _) | some (.extendedData _) => exact emit_preceded past s _
  | some (.exitStatus _) | some (.exitSignal _) => rfl
  | some .closed | none => exact onStreamClosed_preceded past s
  | some (.failed f) => exact onStreamError_preceded past s f

theorem onExpired_preceded : (s.preceded past).onExpired = s.onExpired.preceded past := by
  simp [onExpired, preceded, note, dropStream, closeStream, emit]

theorem stepLookingUp_preceded (c : Credentials) (σ : Stimulus) :
    (s.preceded past).stepLookingUp c σ = (s.stepLookingUp c σ).preceded past := by
  cases σ with
  | resolved found => exact onResolved_preceded past s c found
  | _ => rfl

theorem stepConnecting_preceded (a : Attempt) (σ : Stimulus) :
    (s.preceded past).stepConnecting a σ = (s.stepConnecting a σ).preceded past := by
  cases σ with
  | message m =>
      simp only [stepConnecting]
      split <;> rfl
  | prompt p => exact emit_preceded past s _
  | settle => exact onSettled_preceded past s a
  | _ => rfl

theorem stepListening_preceded (σ : Stimulus) :
    (s.preceded past).stepListening σ = (s.stepListening σ).preceded past := by
  cases σ with
  | message m => exact handle_preceded past s m
  | departed => exact teardown_preceded past s
  | stream e =>
      have hr : (s.preceded past).receiver = s.receiver := rfl
      simp only [stepListening, hr]
      split
      · rw [note_preceded, onStreamEvent_preceded]
      · rfl
  | countdown r =>
      cases r with
      | value remaining => exact emit_preceded past s _
      | lagged _ => rfl
  | expire =>
      have hd : (s.preceded past).isDue = s.isDue := rfl
      simp only [stepListening, hd]
      split
      · exact onExpired_preceded past s
      · rfl
  | _ => rfl

theorem step_preceded (σ : Stimulus) :
    (s.preceded past).step σ = (s.step σ).preceded past := by
  by_cases hσ : σ = .elapse
  · simp [step, hσ, preceded]
  have hc : (s.preceded past).isClosing = s.isClosing := rfl
  have hl : (s.preceded past).lookup = s.lookup := rfl
  have ha : (s.preceded past).attempt = s.attempt := rfl
  have hb : (s.preceded past).backlog = s.backlog := rfl
  simp only [step, hσ, if_false, hc, hl, ha, hb]
  split
  · rfl
  · split
    · exact stepLookingUp_preceded past s _ σ
    · exact stepConnecting_preceded past s _ σ
    · split
      · exact handle_preceded past { s with backlog := _ } _
      · rfl
    · exact stepListening_preceded past s σ

theorem run_preceded (σs : List Stimulus) :
    (s.preceded past).run σs = (s.run σs).preceded past := by
  induction σs generalizing s with
  | nil => rfl
  | cons σ σs ih =>
      simp only [run, List.foldl_cons] at ih ⊢
      rw [step_preceded, ih]

end TerminalGateway.Session

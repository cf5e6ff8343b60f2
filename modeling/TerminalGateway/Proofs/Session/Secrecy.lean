import TerminalGateway.Proofs.Config
import TerminalGateway.Proofs.Session.Coherence
import TerminalGateway.Proofs.Session.Redaction
import TerminalGateway.Session.Scripted

/-!
A session does the same whatever its secrets are. Without them it is what a session makes of the
same messages without theirs, as long as the server side answers the same.
-/

namespace TerminalGateway.Session

variable {ρ : Type} [Remote ρ] {typed : Option Octets} {s t u : Session ρ}

omit [Remote ρ] in
theorem Open.redact (h : s.Open) (answers : List Outcome) : (redact typed s answers).Open :=
  ⟨h.goesOn, h.faultless, h.registered⟩

namespace Mirrors

/-! ### Endings -/

theorem teardown (h : s.Open) : Mirrors typed Session.teardown s s.teardown := by
  rw [h.teardown]
  exact (ended s).congr fun rest => (h.redact rest).teardown

theorem fail_teardown (h : s.Open) (message : String) :
    Mirrors typed (fun v => (v.fail message).teardown) s (s.fail message).teardown := by
  rw [h.fail_teardown]
  exact ((failing s _ _).trans (ended _)).congr fun rest => (h.redact rest).fail_teardown message

theorem onStreamError (h : s.Open) (f : Failure) :
    Mirrors typed (·.onStreamError f) s (s.onStreamError f) := by
  rw [h.onStreamError]
  exact (broken s f).congr fun rest => (h.redact rest).onStreamError f

/-! ### Connecting -/

theorem onResolved (h : s.Open) (c : Credentials) (found : Except String (List Net.Address)) :
    Mirrors typed (·.onResolved c.redact found) s (s.onResolved c found) := by
  have hv : Mirrors typed (·.vetted c.redact found) s (s.vetted c found) :=
    of_append [.vetted c found] rfl rfl rfl fun rest => by
      simp [Session.redact, vetted, Entry.redact]
  have ho : (s.vetted c found).Open := ⟨h.goesOn, h.faultless, h.registered⟩
  cases hj : Net.judge s.config.ssh.allowedSubnets c.host found with
  | ok _ =>
      rw [onResolved_of_ok hj]
      exact (hv.trans (connect _ c)).congr fun rest => onResolved_of_ok hj
  | error refusal =>
      rw [onResolved_of_error hj]
      exact (hv.trans (fail_teardown ho _)).congr fun rest => onResolved_of_error hj

theorem approach (h : s.Open) (c : Credentials) :
    Mirrors typed (·.approach c.redact) s (s.approach c) := by
  by_cases hn : s.config.ssh.allowedSubnets.isEmpty = true
  · have ha : s.approach c = s.connect c := if_pos hn
    rw [ha]
    exact (connect s c).congr fun rest => if_pos hn
  cases hl : Net.literal? c.host with
  | some a =>
      have ha : s.approach c = s.onResolved c (.ok [a]) := by simp [Session.approach, hn, hl]
      rw [ha]
      refine (onResolved h c (.ok [a])).congr fun rest => ?_
      simp [Session.approach, Session.redact, hn, hl]
  | none =>
      have ha : s.approach c = { s with lookup := some c } := by simp [Session.approach, hn, hl]
      rw [ha]
      refine of_same rfl rfl fun rest => ?_
      simp [Session.approach, Session.redact, hn, hl]

omit [Remote ρ] in
theorem resolve?_redact (s : Session ρ) (c : Credentials) (answers : List Outcome) :
    (Session.redact typed s answers).resolve? c.redact = (s.resolve? c).map Credentials.redact := by
  cases hs : c.hasSecret with
  | true => simp [resolve?, hs]
  | false =>
      cases hk : s.cached with
      | none => simp [resolve?, hs, Session.redact, hk]
      | some k =>
          cases hks : k.hasSecret <;>
            simp [resolve?, hs, Session.redact, hk, hks, Option.filter]

theorem onAuth (h : s.Open) (r : AuthRequest) :
    Mirrors typed (·.onAuth { r with credentials := r.credentials.redact }) s (s.onAuth r) := by
  have hr : ∀ rest, (Session.redact typed s rest).resolve? r.credentials.redact =
      (s.resolve? r.credentials).map Credentials.redact := fun rest => resolve?_redact s _ rest
  cases hc : s.resolve? r.credentials with
  | none =>
      rw [onAuth_of_none hc]
      refine ((parted s).trans (fail_teardown h.parted _)).congr fun rest => onAuth_of_none ?_
      simp [hr, hc]
  | some c =>
      have hb : Mirrors typed (·.bound { r with credentials := r.credentials.redact } c.redact)
          s.parted (s.parted.bound r c) := of_same rfl rfl fun _ => rfl
      have ho : (s.parted.bound r c).Open := ⟨rfl, h.parted.faultless, h.parted.registered⟩
      rw [onAuth_of_some hc]
      refine ((parted s).trans (hb.trans (approach ho c))).congr fun rest => onAuth_of_some ?_
      simp [hr, hc]

/-! ### Messages -/

omit [Remote ρ] in
/-- An operation with an answer, and what is done about each. -/
theorem call (what' : Call) {what : Call} {result : ρ × Outcome} {k : Session ρ → Session ρ}
    {g : Session ρ → Failure → Session ρ} (k' : Session Replies → Session Replies)
    (g' : Session Replies → Failure → Session Replies)
    (hreply : ∀ outcome, (Entry.called what outcome).reply? = some outcome)
    (hwhat : ∀ outcome, (Entry.called what outcome).redact
      (if Record.asked (Record.redact typed s.record) then typed else none) =
        .called what' outcome)
    (hk : ∀ remote, Mirrors typed k' (s.did what remote (.ok ()))
      (k (s.did what remote (.ok ()))))
    (hg : ∀ remote f, Mirrors typed (g' · f) (s.did what remote (.error f))
      (g (s.did what remote (.error f)) f)) :
    Mirrors typed (fun v => concluding k' g' (v.call what' v.remote.next)) s
      (concluding k g (s.call what result)) := by
  have hcall : ∀ remote outcome rest,
      (Session.redact typed s (outcome :: rest)).call what'
        (Session.redact typed s (outcome :: rest)).remote.next =
          (Session.redact typed (s.did what remote outcome) rest, outcome) := by
    intro remote outcome rest
    simp [Session.call, Session.redact, did, Session.note, Replies.next, hwhat]
  have hreplies : ∀ remote outcome, Record.replies (s.did what remote outcome).record =
      Record.replies s.record ++ [outcome] := by
    intro remote outcome
    simp [did, Record.replies, hreply]
  obtain ⟨remote, f | ⟨⟩⟩ := result
  · obtain ⟨ht, answers, hr, hf⟩ := hg remote f
    refine ⟨ht, .error f :: answers, ?_, fun rest => ?_⟩
    · exact hr.trans (by rw [hreplies, List.append_assoc]; rfl)
    · rw [List.cons_append, hcall remote]
      exact hf rest
  · obtain ⟨ht, answers, hr, hf⟩ := hk remote
    refine ⟨ht, .ok () :: answers, ?_, fun rest => ?_⟩
    · exact hr.trans (by rw [hreplies, List.append_assoc]; rfl)
    · rw [List.cons_append, hcall remote]
      exact hf rest

theorem onTerminal (h : s.Open) (r : TerminalRequest) :
    Mirrors typed (·.onTerminal r) s (s.onTerminal r) := by
  by_cases hs : s.phase = .streaming
  · have heq : s.onTerminal r = s := if_pos hs
    rw [heq]
    exact (refl s).congr fun rest => if_pos hs
  by_cases hp : s.phase = .connected
  · have hf : Mirrors typed (·.fitted r) s (s.fitted r) := of_same rfl rfl fun _ => rfl
    have ho : (s.fitted r).Open := ⟨h.goesOn, h.faultless, h.registered⟩
    rw [onTerminal_of_connected hp]
    refine (hf.trans (call (.shell ⟨(s.fitted r).term, r.dimensions⟩ (s.streamEnv []))
      (·.attach .shell) Session.onStreamError (fun _ => rfl) (fun _ => rfl)
      (fun _ => attach _ _) fun remote f => onStreamError (ho.did _ _ _) f)).congr fun rest => ?_
    exact onTerminal_of_connected (s := Session.redact typed s rest) hp r
  · have heq : ∀ {ρ' : Type} [Remote ρ'] (v : Session ρ'), v.phase = s.phase →
        v.onTerminal r = v.emit (.sshError "Terminal requested before authentication") := by
      intro _ _ v hv
      simp [Session.onTerminal, hv, hs, hp]
    rw [heq s rfl]
    exact (emit s _).congr fun rest => heq _ rfl

theorem onExec (h : s.Open) (r : ExecRequest) : Mirrors typed (·.onExec r) s (s.onExec r) := by
  by_cases hp : s.phase = .connected
  · rw [onExec_of_connected hp]
    refine (call (.exec r.command (s.execTerminal r) (s.streamEnv r.env))
      (fun u => u.attach (.exec (r.timeout.map (u.clock + ·)))) Session.onStreamError
      (fun _ => rfl) (fun _ => rfl) (fun _ => of_same rfl rfl fun _ => rfl)
      fun remote f => onStreamError (h.did _ _ _) f).congr fun rest => ?_
    exact onExec_of_connected (s := Session.redact typed s rest) hp r
  · have heq : ∀ {ρ' : Type} [Remote ρ'] (v : Session ρ'), v.phase = s.phase →
        v.onExec r =
          v.emit (.sshError "Exec requires an authenticated session without an open stream") := by
      intro _ _ v hv
      simp [Session.onExec, hv, hp]
    rw [heq s rfl]
    exact (emit s _).congr fun rest => heq _ rfl

theorem onResize (h : s.Open) (d : Dimensions) :
    Mirrors typed (·.onResize d) s (s.onResize d) := by
  have hd : Mirrors typed (fun v => { v with dimensions := d }) s { s with dimensions := d } :=
    of_same rfl rfl fun _ => rfl
  have ho : ({ s with dimensions := d } : Session ρ).Open := ⟨h.goesOn, h.faultless, h.registered⟩
  rw [onResize_eq]
  exact hd.trans (call (.resize d) id Session.onStreamError (fun _ => rfl) (fun _ => rfl)
    (fun _ => refl _) fun remote f => onStreamError (ho.did _ _ _) f)

/-- What a client sends to its stream goes there as it is. -/
theorem onData (h : s.Open) (ha : Record.asked (Record.redact typed s.record) = false)
    (bytes : Octets) : Mirrors typed (·.onData bytes) s (s.onData bytes) := by
  by_cases hp : s.phase = .streaming
  · rw [onData_of_streaming hp]
    refine (call (.write bytes) id Session.onStreamError (fun _ => rfl)
      (fun _ => by simp [ha, Entry.redact]) (fun _ => refl _)
      fun remote f => onStreamError (h.did _ _ _) f).congr fun rest => ?_
    exact onData_of_streaming (s := Session.redact typed s rest) hp bytes
  · have heq : ∀ {ρ' : Type} [Remote ρ'] (v : Session ρ'), v.phase = s.phase →
        v.onData bytes = v := by
      intro _ _ v hv
      simp [Session.onData, hv, hp]
    rw [heq s rfl]
    exact (refl s).congr fun rest => heq _ rfl

omit [Remote ρ] in
theorem replayable?_redact (s : Session ρ) (answers : List Outcome) :
    (Session.redact typed s answers).replayable? = s.replayable?.map Credentials.masked := by
  cases hc : s.credentials with
  | none => simp [replayable?, Session.redact, hc]
  | some c =>
      cases hw : c.password with
      | none => simp [replayable?, Session.redact, hc, Credentials.redact, hw]
      | some password =>
          cases he : password.isEmpty <;>
            simp [replayable?, Session.redact, hc, Credentials.redact, hw, Option.filter,
              Credentials.isEmpty_masked, he]

omit [Remote ρ] in
theorem masked_of_replayable? {password : String} (h : s.replayable? = some password) :
    Credentials.masked password = "*" := by
  obtain ⟨-, hne⟩ := Option.filter_eq_some_iff.mp h
  simpa [Credentials.masked] using hne

/-- A password is typed wherever one would be without secrets, and in its place stands what that
one types. -/
theorem onReplay (h : s.Open) (ht : typed = s.typed)
    (ha : Record.asked (Record.redact typed s.record) = true) :
    Mirrors typed Session.onReplay s s.onReplay := by
  have hobj : ∀ rest, (Session.redact typed s rest).objection? (.ok (.control .replayCredentials)) =
      s.objection? (.ok (.control .replayCredentials)) := by
    intro rest
    simp only [objection?, replayable?_redact, Option.map_eq_none_iff]
    rfl
  cases ho : s.objection? (.ok (.control .replayCredentials)) with
  | some text =>
      rw [onReplay_of_objection ho]
      exact (emit s _).congr fun rest => onReplay_of_objection ((hobj rest).trans ho)
  | none =>
      obtain ⟨hr, password, hw, hp⟩ := objection?_replay_eq_none ho
      have hw' : ∀ rest, (Session.redact typed s rest).replayable? = some "*" := fun rest => by
        rw [replayable?_redact, hw, Option.map_some, masked_of_replayable? hw]
      have hty : typed = some (s.replay "*") := by
        rw [ht, Session.typed, if_pos hr]
        rfl
      rw [onReplay_of_streaming hr hw hp]
      refine (call (.write (s.replay "*")) id
        (fun u f => (u.fail ("Failed to replay credentials: " ++ f.message)).teardown)
        (fun _ => rfl) (fun _ => ?_) (fun _ => refl _)
        fun remote f => fail_teardown (h.did _ _ _) _).congr fun rest => ?_
      · rw [if_pos ha, hty]
        rfl
      · exact onReplay_of_streaming (s := Session.redact typed s rest) hr (hw' rest) hp

theorem onControl (h : s.Open) (ht : typed = s.typed) (action : ControlAction)
    (ha : action = .replayCredentials → Record.asked (Record.redact typed s.record) = true) :
    Mirrors typed (·.onControl action) s (s.onControl action) := by
  have hforget : Mirrors typed (fun v => { v with cached := none }) s { s with cached := none } :=
    of_same rfl rfl fun _ => rfl
  cases action with
  | replayCredentials => exact onReplay h ht (ha rfl)
  | reauth =>
      cases hr : s.permissions.allowReauth with
      | false =>
          have heq : ∀ {ρ' : Type} [Remote ρ'] (v : Session ρ'), v.permissions = s.permissions →
              v.onControl .reauth = v.emit (.sshError "Reauthentication is not permitted") := by
            intro _ _ v hv
            simp [Session.onControl, hv, hr]
          rw [heq s rfl]
          exact (emit s _).congr fun rest => heq _ rfl
      | true =>
          have heq : ∀ {ρ' : Type} [Remote ρ'] (v : Session ρ'), v.permissions = s.permissions →
              v.onControl .reauth = ({ v with cached := none }.emit .reauth).teardown := by
            intro _ _ v hv
            simp [Session.onControl, hv, hr]
          have ho : ({ s with cached := none }.emit .reauth).Open :=
            ⟨h.goesOn, h.faultless, h.registered⟩
          rw [heq s rfl]
          exact (hforget.trans ((emit _ _).trans (teardown ho))).congr fun rest => heq _ rfl
  | clearCredentials => exact hforget
  | disconnect => exact teardown h

theorem handle (h : s.Open) (ht : typed = s.typed) (m : Inbound) :
    Mirrors typed (·.handle (Inbound.redact m)) s (s.handle m) := by
  have hn : (s.note (.handled m)).Open := h.note _
  have hnote : Mirrors typed (·.note (.handled (Inbound.redact m))) s (s.note (.handled m)) :=
    note (e := .handled m) s rfl
  match m with
  | .error rejection => exact hnote.trans (emit _ _)
  | .ok (.auth r) => exact hnote.trans (onAuth hn r)
  | .ok (.terminal r) => exact hnote.trans (onTerminal hn r)
  | .ok (.resize d) => exact hnote.trans (onResize hn d)
  | .ok (.exec r) => exact hnote.trans (onExec hn r)
  | .ok (.control action) =>
      refine hnote.trans (onControl hn ht action fun ha => ?_)
      simp [Record.asked, Entry.redact, Inbound.redact, ha]
  | .ok (.data bytes) =>
      refine hnote.trans (onData hn ?_ bytes)
      simp [Record.asked, Entry.redact, Inbound.redact]

/-! ### Steps -/

omit [Remote ρ] in
theorem onConnected (h : s.Open) (c : Credentials) :
    Mirrors typed (·.onConnected c.redact) s (s.onConnected c) := by
  rw [h.onConnected]
  exact (welcomed s c).congr fun rest => (h.redact rest).onConnected c.redact

theorem onConnectFailed (h : s.Open) (c : Credentials) (f : Failure) :
    Mirrors typed (·.onConnectFailed c.redact f) s (s.onConnectFailed c f) := by
  rw [h.onConnectFailed]
  exact (rebuffed s c f).congr fun rest => (h.redact rest).onConnectFailed c.redact f

theorem onSettled (h : s.Open) (c : Credentials) (gone : Bool) :
    Mirrors typed (·.onSettled ⟨c.redact, gone⟩) s (s.onSettled ⟨c, gone⟩) := by
  obtain ⟨⟨remote, outcome⟩, hx⟩ : ∃ result, Remote.settle s.remote = result := ⟨_, rfl⟩
  have ho : (s.settled remote outcome).Open := ⟨h.goesOn, h.faultless, h.registered⟩
  have hreplies : Record.replies (s.settled remote outcome).record =
      Record.replies s.record ++ [outcome] := by simp [settled, Record.replies, Entry.reply?]
  have hredact : ∀ rest, (Session.redact typed s (outcome :: rest)).settled ⟨rest⟩ outcome =
      Session.redact typed (s.settled remote outcome) rest := by
    intro rest
    simp [settled, Session.redact, Entry.redact]
  -- whatever is done next sees the answer in the record and no longer among those to come
  have hnext : ∀ {t : Session ρ} {f g : Session Replies → Session Replies},
      Mirrors typed f (s.settled remote outcome) t →
      (∀ rest, g (Session.redact typed s (outcome :: rest)) =
        f ((Session.redact typed s (outcome :: rest)).settled ⟨rest⟩ outcome)) →
      Mirrors typed g s t := by
    rintro t f g ⟨ht, answers, hr, hf⟩ hg
    refine ⟨ht, outcome :: answers, by rw [hr, hreplies, List.append_assoc]; rfl, fun rest => ?_⟩
    rw [List.cons_append, hg, hredact, hf]
  cases gone with
  | true =>
      have heq : s.onSettled ⟨c, true⟩ = (s.settled remote outcome).teardown := by
        simp only [Session.onSettled, hx]
        rfl
      rw [heq]
      exact hnext (teardown ho) fun rest => rfl
  | false =>
      cases outcome with
      | ok done =>
          have heq : s.onSettled ⟨c, false⟩ = (s.settled remote (.ok done)).onConnected c := by
            simp only [Session.onSettled, hx]
            rfl
          rw [heq]
          exact hnext (onConnected ho c) fun rest => rfl
      | error f =>
          have heq : s.onSettled ⟨c, false⟩ =
              (s.settled remote (.error f)).onConnectFailed c f := by
            simp only [Session.onSettled, hx]
            rfl
          rw [heq]
          exact hnext (onConnectFailed ho c f) fun rest => rfl

theorem onStreamClosed (h : s.Open) {st : OpenStream} (hs : s.stream = some st) :
    Mirrors typed Session.onStreamClosed s s.onStreamClosed := by
  have hdrop : Mirrors typed Session.dropStream s s.dropStream := of_same rfl rfl fun _ => rfl
  cases hk : st.kind with
  | exec deadline =>
      rw [onStreamClosed_of_exec hs hk]
      exact (released s rfl rfl).congr fun rest => onStreamClosed_of_exec hs hk
  | shell =>
      cases hx : st.exitSignal with
      | some name =>
          rw [onStreamClosed_of_signal hs hk hx]
          exact (hdrop.trans (onStreamError h.dropStream _)).congr fun rest =>
            onStreamClosed_of_signal hs hk hx
      | none =>
          rw [onStreamClosed_of_shell hs hk hx]
          exact (hdrop.trans (teardown h.dropStream)).congr fun rest =>
            onStreamClosed_of_shell hs hk hx

theorem onStreamEvent (h : s.Open) {st : OpenStream} (hs : s.stream = some st)
    (e : Option StreamEvent) : Mirrors typed (·.onStreamEvent e) s (s.onStreamEvent e) := by
  match e with
  | some (.data bytes) | some (.extendedData bytes) => exact emit s _
  | some (.exitStatus code) | some (.exitSignal name) => exact of_same rfl rfl fun _ => rfl
  | some .closed | none => exact onStreamClosed h hs
  | some (.failed f) => exact onStreamError h f

theorem stepLookingUp (h : s.Open) (c : Credentials) (σ : Stimulus) :
    Mirrors typed (·.stepLookingUp c.redact σ.redact) s (s.stepLookingUp c σ) := by
  cases σ with
  | resolved found => exact onResolved h c found
  | _ => exact refl s

theorem stepConnecting (h : s.Open) (c : Credentials) (gone : Bool) (σ : Stimulus) :
    Mirrors typed (·.stepConnecting ⟨c.redact, gone⟩ σ.redact) s
      (s.stepConnecting ⟨c, gone⟩ σ) := by
  cases σ with
  | message m =>
      cases gone with
      | true => exact refl s
      | false =>
          refine of_same rfl rfl fun rest => ?_
          simp [Session.stepConnecting, Session.redact, Stimulus.redact]
  | departed => exact of_same rfl rfl fun _ => rfl
  | prompt p => exact emit s _
  | settle => exact onSettled h c gone
  | _ => exact refl s

theorem stepListening (h : s.Open) (ht : typed = s.typed)
    (hr : s.receiver.isSome = true → s.stream.isSome = true) (σ : Stimulus) :
    Mirrors typed (·.stepListening σ.redact) s (s.stepListening σ) := by
  cases σ with
  | message m => exact handle h ht m
  | departed => exact teardown h
  | stream e =>
      cases hn : s.receiver with
      | none =>
          have heq : s.stepListening (.stream e) = s := by simp [Session.stepListening, hn]
          rw [heq]
          refine (refl s).congr fun rest => ?_
          simp [Session.stepListening, Stimulus.redact, Session.redact, hn]
      | some n =>
          obtain ⟨st, hst⟩ := Option.isSome_iff_exists.mp (hr (by simp [hn]))
          have heq : s.stepListening (.stream e) = (s.note (.received n e)).onStreamEvent e := by
            simp [Session.stepListening, hn]
          have hnote : Mirrors typed (·.note (.received n e)) s (s.note (.received n e)) :=
            note (e := .received n e) s rfl
          rw [heq]
          refine (hnote.trans (onStreamEvent (h.note _) hst e)).congr fun rest => ?_
          simp [Session.stepListening, Stimulus.redact, Session.redact, hn]
  | countdown r =>
      cases r with
      | value remaining => exact emit s _
      | lagged _ => exact refl s
  | expire =>
      by_cases hd : s.isDue = true
      · have heq : s.stepListening .expire = s.onExpired := if_pos hd
        rw [heq, onExpired_eq]
        refine (released s rfl rfl).congr fun rest => ?_
        rw [← onExpired_eq]
        exact if_pos hd
      · have heq : s.stepListening .expire = s := if_neg hd
        rw [heq]
        exact (refl s).congr fun rest => if_neg hd
  | _ => exact refl s

/-- The first message kept has its turn, and nothing else. -/
theorem stepResuming (h : s.Open) (ht : typed = s.typed) {m : Inbound} {more : List Inbound}
    (hl : s.lookup = none) (ha : s.attempt = none) (hb : s.backlog = m :: more) {σ : Stimulus}
    (hσ : σ ≠ .elapse) : Mirrors typed (·.step σ.redact) s (s.step σ) := by
  have hσ' : σ.redact ≠ .elapse := by simpa using hσ
  have hstep : ∀ rest, (Session.redact typed s rest).step σ.redact =
      if σ.redact = .resume then
        { Session.redact typed s rest with backlog := more.map Inbound.redact }.handle
          (Inbound.redact m)
      else Session.redact typed s rest := by
    intro rest
    refine step_of_backlog (h.redact rest).goesOn ?_ ?_ ?_ hσ' <;>
      simp [Session.redact, hl, ha, hb]
  rw [step_of_backlog h.goesOn hl ha hb hσ]
  by_cases hres : σ = .resume
  · subst hres
    have hrest : Mirrors typed (fun v => { v with backlog := more.map Inbound.redact }) s
        { s with backlog := more } := of_same rfl rfl fun _ => rfl
    have ho : ({ s with backlog := more } : Session ρ).Open :=
      ⟨h.goesOn, h.faultless, h.registered⟩
    rw [if_pos rfl]
    exact (hrest.trans (handle ho ht m)).congr fun rest => (hstep rest).trans (if_pos rfl)
  · have hres' : σ.redact ≠ .resume := by simpa using hres
    rw [if_neg hres]
    exact (refl s).congr fun rest => (hstep rest).trans (if_neg hres')

theorem step (h : s.Coherent) (ht : typed = s.typed) (σ : Stimulus) :
    Mirrors typed (·.step σ.redact) s (s.step σ) := by
  by_cases hσ : σ = .elapse
  · subst hσ
    rw [step_elapse]
    exact of_same rfl rfl fun rest => step_elapse _
  have hσ' : σ.redact ≠ .elapse := by simpa using hσ
  cases hc : s.isClosing with
  | true =>
      have hc' : ∀ rest, (Session.redact typed s rest).isClosing = true := fun _ => hc
      rw [step_of_isClosing hc hσ]
      exact (refl s).congr fun rest => step_of_isClosing (hc' rest) hσ'
  | false =>
      have ho : s.Open := h.isOpen hc
      have hc' : ∀ rest, (Session.redact typed s rest).isClosing = false := fun _ => hc
      cases hl : s.lookup with
      | some c =>
          rw [step_of_lookup hc hl hσ]
          refine (stepLookingUp ho c σ).congr fun rest => step_of_lookup (hc' rest) ?_ hσ'
          simp [Session.redact, hl]
      | none =>
          have hl' : ∀ rest, (Session.redact typed s rest).lookup = none := fun rest => by
            simp [Session.redact, hl]
          cases ha : s.attempt with
          | some a =>
              obtain ⟨c, gone⟩ := a
              rw [step_of_attempt hc hl ha hσ]
              refine (stepConnecting ho c gone σ).congr fun rest =>
                step_of_attempt (hc' rest) (hl' rest) ?_ hσ'
              simp [Session.redact, ha]
          | none =>
              cases hb : s.backlog with
              | cons m more => exact stepResuming ho ht hl ha hb hσ
              | nil =>
                  have hr : s.receiver.isSome = true → s.stream.isSome = true := fun hr =>
                    h.stream.mpr (h.receiver.mp hr)
                  rw [step_of_listening hc hl ha hb hσ]
                  refine (stepListening ho ht hr σ).congr fun rest =>
                    step_of_listening (hc' rest) (hl' rest) ?_ ?_ hσ' <;>
                    simp [Session.redact, ha, hb]

theorem run (h : s.Coherent) (ht : typed = s.typed) (σs : List Stimulus) :
    Mirrors typed (·.run (σs.map Stimulus.redact)) s (s.run σs) := by
  induction σs generalizing s with
  | nil => exact refl s
  | cons σ σs ih =>
      have hstep : Mirrors typed (·.step σ.redact) s (s.step σ) := step h ht σ
      exact hstep.trans (ih (h.step σ) (ht.trans hstep.settings.symm))

end Mirrors

/-- Two sessions whose clients and servers do the same but for the contents of secrets tell their
clients the same, end the same, and do the same but for the secrets themselves: those in messages,
those that a connection is begun with, and a password that may be typed and is. -/
theorem secrets_unobserved {ρ' : Type} [Remote ρ'] (config : Config) (remote : ρ) (remote' : ρ')
    {cached cached' : Option Credentials} (env : Environment.Pairs) {σs σs' : List Stimulus}
    {answers : List Outcome}
    (hcached : cached.map Credentials.redact = cached'.map Credentials.redact)
    (hσs : σs.map Stimulus.redact = σs'.map Stimulus.redact)
    (ha : Record.replies ((start config remote cached env).run σs).record <+: answers)
    (ha' : Record.replies ((start config remote' cached' env).run σs').record <+: answers) :
    let s := (start config remote cached env).run σs
    let s' := (start config remote' cached' env).run σs'
    let typed := (start config remote cached env).typed
    Record.events s.record = Record.events s'.record ∧ s.phase = s'.phase ∧
      s.firstError = s'.firstError ∧
      Record.redact typed s.record = Record.redact typed s'.record := by
  intro s s' typed
  have hrun : Mirrors typed _ _ s :=
    Mirrors.run (coherent_start config remote cached env) rfl σs
  have hrun' : Mirrors typed _ _ s' :=
    Mirrors.run (coherent_start config remote' cached' env) rfl σs'
  have hstart : ∀ rest, redact typed (start config remote cached env) rest =
      redact typed (start config remote' cached' env) rest := by
    intro rest
    simp [redact, start, hcached]
  obtain ⟨-, asked, hr, hf⟩ := hrun
  obtain ⟨-, asked', hr', hf'⟩ := hrun'
  obtain ⟨more, rfl⟩ := ha
  obtain ⟨more', hmore⟩ := ha'
  have heq : redact typed s more = redact typed s' more' := by
    have hs : Record.replies s.record = asked := hr
    have hs' : Record.replies s'.record = asked' := hr'
    rw [← hf, ← hf', ← hs, ← hs', hmore, hσs, hstart]
  have hrecord : Record.redact typed s.record = Record.redact typed s'.record :=
    congrArg Session.record heq
  refine ⟨?_, congrArg Session.phase heq, congrArg Session.firstError heq, hrecord⟩
  rw [← Record.events_redact typed s.record, hrecord, Record.events_redact]

/-- A login, a terminal, and the password typed into it. -/
def typing (password : String) : List Stimulus :=
  [.message (.ok (.auth ⟨⟨"h", 22, "user", some password, none, none⟩, none, none⟩)), .settle,
    .message (.ok (.terminal ⟨none, .standard⟩)),
    .message (.ok (.control .replayCredentials))]

def lenient : Config :=
  { Config.standard with permissions := { Permissions.standard with allowReplay := true } }

theorem secrets_unobserved_typing :
    let s := (start lenient ({} : Script) none []).run (typing "pw")
    let s' := (start lenient ({} : Script) none []).run (typing "sesame")
    let typed := (start lenient ({} : Script) none []).typed
    (typing "pw").map Stimulus.redact = (typing "sesame").map Stimulus.redact ∧
      Record.replies s'.record = Record.replies s.record ∧ s.record ≠ s'.record ∧
      Record.events s.record = Record.events s'.record ∧ s.phase = s'.phase ∧
      s.firstError = s'.firstError ∧
      Record.redact typed s.record = Record.redact typed s'.record := by
  intro s s' typed
  have hσs : (typing "pw").map Stimulus.redact = (typing "sesame").map Stimulus.redact := by
    decide +kernel
  have hreplies : Record.replies s'.record = Record.replies s.record := by decide +kernel
  exact ⟨hσs, hreplies, by decide +kernel,
    secrets_unobserved lenient ({} : Script) ({} : Script) [] rfl hσs (List.prefix_refl _)
      (hreplies ▸ List.prefix_refl _)⟩

end TerminalGateway.Session

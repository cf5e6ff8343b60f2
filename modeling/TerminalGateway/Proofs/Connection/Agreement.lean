import TerminalGateway.Connection.Basic
import TerminalGateway.Proofs.Session.Operations

/-!
A session over a connection to a server. Both keep a notion of what is open, and the two agree at
every moment, whatever the server does. So the session never asks its connection for anything that
needs a link or a stream which is not there.
-/

namespace TerminalGateway

namespace Connection

/-! ### What operations leave open -/

/-- The link, the stream and the attempt to connect that a connection has. -/
def held (c : Connection) : Option Nat × Option Nat × Option Credentials :=
  (c.handle, c.stream, c.pending)

theorem held_closeStream (c : Connection) : c.closeStream.held = (c.handle, none, c.pending) := by
  unfold closeStream
  cases hs : c.stream with
  | none => simp [held, hs]
  | some _ => rfl

theorem held_hangUp (c : Connection) : c.hangUp.held = (none, none, c.pending) := by
  have hclose := c.held_closeStream
  simp only [held, Prod.mk.injEq] at hclose
  unfold hangUp
  cases hh : c.closeStream.handle with
  | none => simp [held, hh, hclose]
  | some _ => simp [held, ask, hh, hclose.2]

theorem held_begin {c : Connection} (h : c.stream = none) (who : Credentials) :
    (c.begin who).held = (none, none, some who) := by
  unfold begin
  cases hh : c.handle with
  | none => simp [held, hh, h]
  | some _ =>
      have hup := c.held_hangUp
      simp_all [held]

theorem held_requestAll (c : Connection) (channel : Nat)
    (requests : List (ChannelRequest × String)) :
    (c.requestAll channel requests).1.held = c.held := by
  induction requests generalizing c with
  | nil => rfl
  | cons r rest ih =>
      simp only [requestAll, request]
      split
      next hr =>
        obtain ⟨rfl, -⟩ := Prod.mk.inj hr
        exact ih _
      next hr =>
        obtain ⟨rfl, -⟩ := Prod.mk.inj hr
        rfl

theorem held_of_requestAll {c d : Connection} {channel : Nat}
    {requests : List (ChannelRequest × String)} {outcome : Outcome}
    (h : c.requestAll channel requests = (d, outcome)) : d.held = c.held := by
  rw [← c.held_requestAll channel requests, h]

theorem held_of_write {c d : Connection} {bytes : Octets} {outcome : Outcome}
    (h : c.write bytes = (d, outcome)) : d.held = c.held := by
  unfold write at h
  split at h
  · exact (Prod.mk.inj h).1 ▸ rfl
  · exact held_of_requestAll h

theorem held_of_resize {c d : Connection} {size : Dimensions} {outcome : Outcome}
    (h : c.resize size = (d, outcome)) : d.held = c.held := by
  unfold resize at h
  split at h
  · exact (Prod.mk.inj h).1 ▸ rfl
  · exact held_of_requestAll h

theorem held_openStream (c : Connection) (env : Environment.Pairs) (terminal : Option Terminal)
    (program : ChannelRequest) (words : String) :
    ∃ stream, (c.openStream env terminal program words).1.held = (c.handle, stream, c.pending) ∧
      (stream.isSome = true ↔ (c.openStream env terminal program words).2 = .ok ()) := by
  rw [← (Prod.mk.inj c.held_closeStream).1]
  rw [← (Prod.mk.inj (Prod.mk.inj c.held_closeStream).2).2]
  have hs : c.closeStream.stream = none := (Prod.mk.inj (Prod.mk.inj c.held_closeStream).2).1
  unfold openStream
  dsimp only
  generalize c.closeStream = d at hs ⊢
  cases hh : d.handle with
  | none => exact ⟨none, by simp [held, hh, hs], by simp⟩
  | some link =>
      simp only [request]
      split
      next d' e hr =>
        obtain ⟨rfl, -⟩ := Prod.mk.inj hr
        exact ⟨none, by simp [held, ask, hh, hs], by simp⟩
      next d' hr =>
        obtain ⟨rfl, -⟩ := Prod.mk.inj hr
        split
        next d' hd =>
          have hkept := held_of_requestAll hd
          simp only [held, ask, hh, Prod.mk.injEq] at hkept
          exact ⟨some d.channels, by simp [held, ask, hkept], by simp⟩
        next d' f hd =>
          have hkept := held_of_requestAll hd
          simp only [held, ask, hh, hs, Prod.mk.injEq] at hkept
          exact ⟨none, by simp [held, hkept], by simp⟩

theorem held_login {c : Connection} (hh : c.handle = none) (link : Nat) (who : Credentials) :
    ∃ handle, (c.login link who).1.held = (handle, c.stream, c.pending) ∧
      (handle.isSome = true ↔ (c.login link who).2 = .ok ()) := by
  unfold login
  generalize Auth.authenticate _ c.readKey who = result
  match result with
  | (.ok true, _) => exact ⟨some link, rfl, by simp⟩
  | (.ok false, _) => exact ⟨none, by simp [held, ask, hh], by simp⟩
  | (.error _, _) => exact ⟨none, by simp [held, hh], by simp⟩

theorem held_settle {c : Connection} {who : Credentials} (hp : c.pending = some who)
    (hh : c.handle = none) :
    ∃ handle, c.settle.1.held = (handle, c.stream, none) ∧
      (handle.isSome = true ↔ c.settle.2 = .ok ()) := by
  simp only [settle, hp, establish]
  split
  · exact held_login (by exact hh) _ who
  · exact ⟨none, by simp [held, ask, hh], by simp⟩

end Connection

/-- An operation finds the link or the stream that it needs, and its outcome is that of using it. -/
def Connection.Serves (c : Connection) : Call → Outcome → Prop
  | .shell t env, outcome => c.handle.isSome = true ∧ outcome = (c.shell t env).2
  | .exec command t env, outcome => c.handle.isSome = true ∧ outcome = (c.exec command t env).2
  | .write bytes, outcome => c.stream.isSome = true ∧ outcome = (c.write bytes).2
  | .resize d, outcome => outcome = (c.resize d).2
  | _, _ => True

namespace Session

variable {s t : Session Connection}

/-- A session and its connection have the same notion of what is open. -/
structure Agrees (s : Session Connection) : Prop where
  link : s.remote.handle.isSome = true ↔ s.phase = .connected ∨ s.phase = .streaming
  stream : s.remote.stream.isSome = true ↔ s.phase = .streaming
  pending : ∀ a, s.attempt = some a → s.remote.pending = some a.credentials

theorem agrees_of_held {handle stream : Option Nat} {pending : Option Credentials}
    (hr : s.remote.held = (handle, stream, pending))
    (hh : handle.isSome = true ↔ s.phase = .connected ∨ s.phase = .streaming)
    (hs : stream.isSome = true ↔ s.phase = .streaming)
    (hp : ∀ a, s.attempt = some a → pending = some a.credentials) : s.Agrees := by
  simp only [Connection.held, Prod.mk.injEq] at hr
  obtain ⟨rfl, rfl, rfl⟩ := hr
  exact ⟨hh, hs, hp⟩

theorem agrees_ended (ha : s.attempt = none) : s.ended.Agrees :=
  agrees_of_held s.remote.held_hangUp (by simp [Session.ended]) (by simp [Session.ended])
    (by simp [Session.ended, ha])

theorem agrees_broken (ha : s.attempt = none) (f : Failure) : (s.broken f).Agrees := by
  unfold Session.broken
  split <;> exact agrees_ended (by exact ha)

theorem agrees_rebuffed (ha : s.attempt = none) (c : Credentials) (f : Failure) :
    (s.rebuffed c f).Agrees := by
  obtain ⟨_, _, _, -, -, hr⟩ := s.exists_rebuffed c f
  rw [hr]
  exact agrees_ended (by exact ha)

namespace Agrees

theorem kept (h : s.Agrees) (hr : t.remote.held = s.remote.held) (hp : t.phase = s.phase)
    (ha : t.attempt = s.attempt) : t.Agrees :=
  agrees_of_held hr (hp ▸ h.link) (hp ▸ h.stream) (ha ▸ h.pending)

theorem bound (h : s.Agrees) (ha : s.attempt = none) (r : AuthRequest) (c : Credentials) :
    (s.parted.bound r c).Agrees := by
  by_cases hp : s.phase = .connected ∨ s.phase = .streaming
  · rw [Session.parted, if_pos hp]
    exact agrees_of_held s.remote.held_hangUp (by simp [Session.bound]) (by simp [Session.bound])
      (by simp [Session.bound, ha])
  · rw [Session.parted, if_neg hp]
    have hh : s.remote.handle = none := by simpa using mt h.link.mp hp
    have hs : s.remote.stream = none := by simpa using mt h.stream.mp (mt .inr hp)
    exact ⟨by simp [Session.bound, hh], by simp [Session.bound, hs], by simp [Session.bound, ha]⟩

theorem connect (h : s.Agrees) (hp : s.phase = .authenticating) (c : Credentials) :
    (s.connect c).Agrees := by
  have hs : s.remote.stream = none := by simpa [hp] using h.stream
  exact agrees_of_held (Connection.held_begin hs c) (by simp [Session.connect, note, hp])
    (by simp [Session.connect, note, hp]) (by simp [Session.connect, note])

theorem released (h : s.Agrees) (hp : s.phase = .streaming) (ha : s.attempt = none)
    (es : List Entry) : (s.released es).Agrees :=
  agrees_of_held s.remote.held_closeStream (by simpa [Session.released, hp] using h.link)
    (by simp [Session.released]) (by simp [Session.released, ha])

theorem vets (h : s.Agrees) (hp : s.phase = .authenticating) (ha : s.attempt = none)
    {c : Credentials} {found : Except String (List Net.Address)} (hv : Vets s c found t) :
    t.Agrees := by
  cases hv with
  | allowed _ => exact (h.kept (t := s.vetted c found) rfl rfl rfl).connect hp c
  | refused _ => exact agrees_ended (by exact ha)

theorem approaches (h : s.Agrees) (hp : s.phase = .authenticating) (ha : s.attempt = none)
    {c : Credentials} (hm : Approaches s c t) : t.Agrees := by
  cases hm with
  | unrestricted _ => exact h.connect hp c
  | literal _ _ hv => exact h.vets hp ha hv
  | named _ _ => exact h.kept rfl rfl rfl

/-- A stream was asked for, and it is there. -/
theorem opened {v : Session Connection} (h : v.Agrees) (hp : v.phase = .connected)
    (ha : v.attempt = none) {env : Environment.Pairs} {terminal : Option Terminal}
    {program : ChannelRequest} {words : String} {what : Call} {remote : Connection}
    (hr : v.remote.openStream env terminal program words = (remote, .ok ())) (kind : StreamKind) :
    ((v.did what remote (.ok ())).attach kind).Agrees := by
  obtain ⟨stream, hheld, hs⟩ := v.remote.held_openStream env terminal program words
  rw [hr] at hheld hs
  have hh : v.remote.handle.isSome = true := h.link.mpr (.inl hp)
  exact agrees_of_held hheld (by simp [Session.attach, hh]) (by simp [Session.attach, hs])
    (by simp [Session.attach, Session.did, ha])

theorem answers (h : s.Agrees) (ha : s.attempt = none) {m : Inbound} (hm : Answers s m t) :
    t.Agrees := by
  have hpart : s.parted.attempt = none := by
    unfold Session.parted
    split <;> exact ha
  cases hm with
  | objected _ | ignored _ | forgot => exact h.kept rfl rfl rfl
  | unauthenticated _ => exact agrees_ended (by exact hpart)
  | authenticating _ hap => exact (h.bound ha _ _).approaches rfl (by exact hpart) hap
  | @shellOpened r _ hp hr => exact opened (v := s.fitted r) (h.kept rfl rfl rfl) hp ha hr _
  | execOpened hp hr => exact h.opened hp ha hr _
  | shellFailed _ _ | execFailed _ _ | resizeFailed _ | writeFailed _ _ =>
      exact agrees_broken (by exact ha) _
  | resized hr => exact h.kept (Connection.held_of_resize hr) rfl rfl
  | wrote _ hr | replayed _ _ _ hr => exact h.kept (Connection.held_of_write hr) rfl rfl
  | replayFailed _ _ _ _ | reauthed _ | disconnected => exact agrees_ended (by exact ha)

theorem receives (h : s.Agrees) (hp : s.phase = .streaming) (ha : s.attempt = none)
    {e : Option StreamEvent} (hr : Receives s e t) : t.Agrees := by
  cases hr with
  | output | extended | exitStatus _ | exitSignal _ => exact h.kept rfl rfl rfl
  | execClosed _ _ _ => exact h.released hp ha _
  | shellSignalled _ _ _ _ | failed => exact agrees_broken ha _
  | shellClosed _ _ _ _ => exact agrees_ended ha

/-- A server that has let the client in leaves a link. -/
theorem welcomed (h : s.Agrees) (hp : s.phase = .authenticating) {c : Credentials}
    (ha : s.attempt = some ⟨c, false⟩) {remote : Connection}
    (hr : Remote.settle s.remote = (remote, .ok ())) :
    ((s.settled remote (.ok ())).welcomed c).Agrees := by
  have hh : s.remote.handle = none := by simpa [hp] using h.link
  have hs : s.remote.stream = none := by simpa [hp] using h.stream
  obtain ⟨handle, hheld, hok⟩ := Connection.held_settle (h.pending _ ha) hh
  rw [show s.remote.settle = (remote, .ok ()) from hr, hs] at hheld
  rw [show s.remote.settle = (remote, .ok ()) from hr] at hok
  exact agrees_of_held hheld (by simp [Session.welcomed, hok]) (by simp [Session.welcomed])
    (by simp [Session.welcomed, settled])

theorem moves (h : s.Agrees) (hc : s.Coherent) {σ : Stimulus} (hm : Moves s σ t) : t.Agrees := by
  cases hm with
  | answered hi hans =>
      obtain ⟨-, -, ha, -⟩ := isListening_iff.mp hi
      exact answers (s := s.note _) (h.kept rfl rfl rfl) ha hans
  | @resumed m rest _ _ ha _ hans =>
      exact answers (s := { s with backlog := rest }.note (.handled m)) (h.kept rfl rfl rfl) ha hans
  | queued _ _ | prompted _ _ | counted _ => exact h.kept rfl rfl rfl
  | abandoned _ ha => exact ⟨h.link, h.stream, by simpa using h.pending _ ha⟩
  | connected _ ha hr => exact h.welcomed (hc.waiting.mpr (.inr (by simp [ha]))) ha hr
  | rebuffed _ _ _ => exact agrees_rebuffed rfl _ _
  | givenUp _ _ _ => exact agrees_ended rfl
  | resolved hl hv =>
      exact h.vets (hc.waiting.mpr (.inl (by simp [hl]))) (hc.resolving _ hl).1 hv
  | departed hi => exact agrees_ended (isListening_iff.mp hi).2.2.1
  | @received n e _ hi hn hr =>
      have hp : s.phase = .streaming := hc.receiver.mp (by simp [hn])
      exact receives (s := s.note _) (h.kept rfl rfl rfl) hp (isListening_iff.mp hi).2.2.1 hr
  | expired hi hd =>
      have hs : s.stream.isSome = true := by
        cases hs : s.stream with
        | none => simp [isDue, hs] at hd
        | some _ => rfl
      exact h.released (hc.stream.mp hs) (isListening_iff.mp hi).2.2.1 _

theorem run (h : s.Agrees) (hc : s.Coherent) (σs : List Stimulus) : (s.run σs).Agrees :=
  hc.run_induction h (fun _ ht => ht.kept rfl rfl rfl) fun _ _ _ _ hc _ ht hm => ht.moves hc hm

theorem serves (h : s.Agrees) {m : Inbound} {o : Operation Connection}
    (ho : s.operation? m = some o) : s.remote.Serves o.call o.result.2 := by
  match m with
  | .ok (.terminal _) | .ok (.exec _) =>
      obtain ⟨hp, ho⟩ := Option.ite_none_right_eq_some.mp ho
      obtain rfl := Option.some.inj ho
      exact ⟨h.link.mpr (.inl hp), rfl⟩
  | .ok (.data _) =>
      obtain ⟨hp, ho⟩ := Option.ite_none_right_eq_some.mp ho
      obtain rfl := Option.some.inj ho
      exact ⟨h.stream.mpr hp, rfl⟩
  | .ok (.control .replayCredentials) =>
      obtain ⟨hp, ho⟩ := Option.ite_none_right_eq_some.mp ho
      obtain ⟨_, -, rfl⟩ := Option.map_eq_some_iff.mp ho
      exact ⟨h.stream.mpr hp.2, rfl⟩
  | .ok (.resize _) =>
      obtain rfl := Option.some.inj ho
      rfl
  | .error _ | .ok (.auth _) | .ok (.control .reauth) | .ok (.control .clearCredentials)
  | .ok (.control .disconnect) => simp [operation?] at ho

theorem serves_step (h : s.Agrees) (hc : s.Coherent) (σ : Stimulus) :
    ∃ new, (s.step σ).record = s.record ++ new ∧
      ∀ call outcome, .called call outcome ∈ new → s.remote.Serves call outcome := by
  obtain ⟨new, hr, hnew⟩ := hc.operates σ
  refine ⟨new, hr, fun call outcome hm => ?_⟩
  cases ho : Entry.isOperation (.called call outcome) with
  | false =>
      unfold Entry.isOperation at ho
      cases call with
      | connect _ | closeStream | hangUp => trivial
      | shell _ _ | exec _ _ _ | write _ | resize _ => simp at ho
  | true =>
      have hmem : .called call outcome ∈ Record.operations new := List.mem_filter.mpr ⟨hm, ho⟩
      rw [hnew, Option.mem_toList] at hmem
      obtain ⟨o, hasked, he⟩ := Option.map_eq_some_iff.mp hmem
      obtain ⟨m, -, hasked⟩ := Option.bind_eq_some_iff.mp hasked
      simp only [Operation.entry, Entry.called.injEq] at he
      obtain ⟨rfl, rfl⟩ := he
      exact h.serves hasked

end Agrees

/-- A session and its connection to a server agree at every moment of a run, whatever the server
says: on the stream, on the link, and on the attempt to connect. Whatever the session then asks for,
the connection has the link or the stream for it. -/
theorem connection_agrees_run (config : Config) (peer : Peer) (readyTimeout : Nat)
    (readKey : Auth.KeyReader) (cached : Option Credentials) (env : Environment.Pairs)
    (σs : List Stimulus) :
    let s := (start config ({ peer, readyTimeout, readKey } : Connection) cached env).run σs
    (s.phase = .streaming ↔ s.remote.stream.isSome = true) ∧
    (s.phase = .connected ∨ s.phase = .streaming ↔ s.remote.handle.isSome = true) ∧
    (s.phase = .idle ∨ s.phase = .closed → s.remote.handle = none ∧ s.remote.stream = none) ∧
    (∀ a, s.attempt = some a → s.remote.pending = some a.credentials) ∧
    ∀ σ, ∃ new, (s.step σ).record = s.record ++ new ∧
      ∀ call outcome, .called call outcome ∈ new → s.remote.Serves call outcome := by
  intro s
  let begun := start config ({ peer, readyTimeout, readKey } : Connection) cached env
  have hb : begun.Coherent := coherent_start _ _ _ _
  have hagrees : begun.Agrees := agrees_of_held rfl (by simp [begun, start])
    (by simp [begun, start]) (by simp [begun, start])
  have h : s.Agrees := hagrees.run hb σs
  refine ⟨h.stream.symm, h.link.symm, fun hp => ?_, h.pending, h.serves_step (hb.run σs)⟩
  have hdown : ¬ (s.phase = .connected ∨ s.phase = .streaming) := by
    rcases hp with hp | hp <;> simp [hp]
  exact ⟨by simpa using mt h.link.mp hdown, by simpa using mt h.stream.mp (mt .inr hdown)⟩

end Session

end TerminalGateway

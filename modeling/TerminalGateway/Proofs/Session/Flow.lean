import TerminalGateway.Proofs.Session.Coherence
import TerminalGateway.Proofs.Session.Line

/-!
What becomes of the streams of a session. A move opens a stream, or takes something off the one that
is open, or ends it, or drops it, or has nothing to do with it.
-/

namespace TerminalGateway

/-- An entry that neither opens a stream nor tells anything of one. -/
def Entry.isStill : Entry → Bool
  | .called (.shell _ _) (.ok ()) | .called (.exec _ _ _) (.ok ()) | .called .closeStream _
  | .received _ _ | .expired | .sent (.data _) | .sent (.execExit _ _ _) => false
  | _ => true

/-- The output in what a stream delivers. -/
def StreamEvent.payload? : StreamEvent → Option Octets
  | .data bytes | .extendedData bytes => some bytes
  | _ => none

/-- A stream after something that it delivered, which may tell of the end of its program. -/
def OpenStream.heard (st : OpenStream) : StreamEvent → OpenStream
  | .exitStatus code => { st with exitCode := some code }
  | .exitSignal name => { st with exitSignal := some name }
  | _ => st

namespace Session

variable {ρ : Type} {s t u : Session ρ}

/-! ### Streams left alone or dropped -/

/-- A session did nothing about streams but perhaps drop the one that it had. -/
structure Aside (s t : Session ρ) : Prop where
  record : ∃ es, t.record = s.record ++ es ∧ ∀ e ∈ es, e.isStill = true
  opened : t.opened = s.opened
  stream : t.stream = s.stream ∧ t.receiver = s.receiver ∨ t.stream = none ∧ t.receiver = none

namespace Aside

theorem same {es : List Entry} (hr : t.record = s.record ++ es) (he : es.all Entry.isStill = true)
    (ho : t.opened = s.opened) (hs : t.stream = s.stream) (hn : t.receiver = s.receiver) :
    Aside s t :=
  ⟨⟨es, hr, List.all_eq_true.mp he⟩, ho, .inl ⟨hs, hn⟩⟩

theorem dropped {es : List Entry} (hr : t.record = s.record ++ es)
    (he : es.all Entry.isStill = true) (ho : t.opened = s.opened) (hs : t.stream = none)
    (hn : t.receiver = none) : Aside s t :=
  ⟨⟨es, hr, List.all_eq_true.mp he⟩, ho, .inr ⟨hs, hn⟩⟩

theorem refl (s : Session ρ) : Aside s s := same (List.append_nil _).symm rfl rfl rfl rfl

theorem trans (h : Aside s t) (h' : Aside t u) : Aside s u := by
  obtain ⟨es, hr, he⟩ := h.record
  obtain ⟨es', hr', he'⟩ := h'.record
  refine ⟨⟨es ++ es', by rw [hr', hr, List.append_assoc], ?_⟩, h'.opened.trans h.opened, ?_⟩
  · intro e hm
    rcases List.mem_append.mp hm with hm | hm
    · exact he e hm
    · exact he' e hm
  · rcases h'.stream with ⟨hs, hn⟩ | hd
    · rw [hs, hn]
      exact h.stream
    · exact .inr hd

theorem note (s : Session ρ) {e : Entry} (he : e.isStill = true) : Aside s (s.note e) :=
  same rfl (by simp [he]) rfl rfl rfl

theorem did (s : Session ρ) {what : Call} {outcome : Outcome}
    (he : (Entry.called what outcome).isStill = true) (remote : ρ) :
    Aside s (s.did what remote outcome) :=
  same rfl (by simp [he]) rfl rfl rfl

theorem failing (s : Session ρ) (message : String) {event : ServerEvent}
    (he : (Entry.sent event).isStill = true) : Aside s (s.failing message event) :=
  same rfl (by simp [he]) rfl rfl rfl

variable [Remote ρ]

theorem ended (s : Session ρ) : Aside s s.ended := dropped rfl rfl rfl rfl rfl

theorem broken (s : Session ρ) (f : Failure) : Aside s (s.broken f) := by
  unfold Session.broken
  split
  · have hi : Aside s (s.keeping (f.userMessage s.target.1 s.target.2)).inviting :=
      same rfl rfl rfl rfl rfl
    exact hi.trans (ended _)
  · exact (failing s _ rfl).trans (ended _)

theorem rebuffed (s : Session ρ) (c : Credentials) (f : Failure) : Aside s (s.rebuffed c f) := by
  obtain ⟨_, _, _, -, hi, hr⟩ := s.exists_rebuffed c f
  rw [hr]
  refine .trans ?_ (ended _)
  rcases hi with rfl | rfl <;> exact same rfl rfl rfl rfl rfl

theorem parted (s : Session ρ) : Aside s s.parted := by
  unfold Session.parted
  split
  · exact dropped rfl rfl rfl rfl rfl
  · exact refl s

theorem vets {c : Credentials} {found : Except String (List Net.Address)} (h : Vets s c found t) :
    Aside s t := by
  have hv : Aside s (s.vetted c found) := same rfl rfl rfl rfl rfl
  cases h with
  | allowed _ => exact hv.trans (same rfl rfl rfl rfl rfl)
  | refused _ => exact hv.trans ((failing _ _ rfl).trans (ended _))

theorem approaches {c : Credentials} (h : Approaches s c t) : Aside s t := by
  cases h with
  | unrestricted _ => exact same rfl rfl rfl rfl rfl
  | literal _ _ hv => exact vets hv
  | named _ _ => exact same (List.append_nil _).symm rfl rfl rfl rfl

end Aside

/-! ### Streams opened -/

/-- The operation that opens a stream for a message at a time, and which stream that is. -/
inductive Opens (clock : Nat) : Inbound → Call → StreamKind → Prop
  | shell {r : TerminalRequest} {terminal : Terminal} {env : Environment.Pairs} :
      Opens clock (.ok (.terminal r)) (.shell terminal env) .shell
  | exec {r : ExecRequest} {terminal : Option Terminal} {env : Environment.Pairs} :
      Opens clock (.ok (.exec r)) (.exec r.command terminal env)
        (.exec (r.timeout.map (clock + ·)))

/-- The session opened a stream for a message and listens to it. -/
structure Attaches (s : Session ρ) (m : Inbound) (call : Call) (kind : StreamKind)
    (t : Session ρ) : Prop where
  opens : Opens s.clock m call kind
  record : t.record = s.record ++ [.called call (.ok ())]
  stream : t.stream = some { kind }
  receiver : t.receiver = some s.opened
  opened : t.opened = s.opened + 1

variable [Remote ρ]

theorem Answers.flows {m : Inbound} (h : Answers s m t) :
    Aside s t ∨ s.phase = .connected ∧ ∃ call kind, Attaches s m call kind t := by
  cases h with
  | shellOpened hp _ => exact .inr ⟨hp, _, _, .shell, rfl, rfl, rfl, rfl⟩
  | execOpened hp _ => exact .inr ⟨hp, _, _, .exec, rfl, rfl, rfl, rfl⟩
  | objected _ => exact .inl (.note s rfl)
  | ignored _ => exact .inl (.refl s)
  | unauthenticated _ =>
      exact .inl ((Aside.parted s).trans ((Aside.failing _ _ rfl).trans (.ended _)))
  | @authenticating r c _ _ ha =>
      have hb : Aside s.parted (s.parted.bound r c) :=
        .same (List.append_nil _).symm rfl rfl rfl rfl
      exact .inl ((Aside.parted s).trans (hb.trans (.approaches ha)))
  | @shellFailed r _ _ _ _ =>
      have hf : Aside s (s.fitted r) := .same (List.append_nil _).symm rfl rfl rfl rfl
      exact .inl (hf.trans ((Aside.did _ rfl _).trans (.broken _ _)))
  | execFailed _ _ | writeFailed _ _ => exact .inl ((Aside.did s rfl _).trans (.broken _ _))
  | resized _ => exact .inl (.same rfl rfl rfl rfl rfl)
  | @resizeFailed d remote f _ =>
      have hd : Aside s ({ s with dimensions := d }.did (.resize d) remote (.error f)) :=
        .same rfl rfl rfl rfl rfl
      exact .inl (hd.trans (.broken _ _))
  | wrote _ _ | replayed _ _ _ _ => exact .inl (.did s rfl _)
  | replayFailed _ _ _ _ =>
      exact .inl ((Aside.did s rfl _).trans ((Aside.failing _ _ rfl).trans (.ended _)))
  | reauthed _ =>
      have hf : Aside s ({ s with cached := none }.emit .reauth) := .same rfl rfl rfl rfl rfl
      exact .inl (hf.trans (.ended _))
  | forgot => exact .inl (.same (List.append_nil _).symm rfl rfl rfl rfl)
  | disconnected => exact .inl (.ended s)

/-! ### Moves -/

/-- What a move comes to for one who asks about streams only. -/
inductive Flows (s : Session ρ) : Stimulus → Session ρ → Prop
  | aside {σ : Stimulus} {t : Session ρ} (hσ : ∀ e, σ ≠ .stream e) (h : Aside s t) : Flows s σ t
  | opened {σ : Stimulus} {t : Session ρ} {m : Inbound} {call : Call} {kind : StreamKind}
      (hσ : ∀ e, σ ≠ .stream e) (hn : s.receiver = none) (h : Opens s.clock m call kind)
      (hr : t.record = s.record ++ [.handled m, .called call (.ok ())])
      (hs : t.stream = some { kind }) (hk : t.receiver = some s.opened)
      (ho : t.opened = s.opened + 1) : Flows s σ t
  | heard {t : Session ρ} {n : Nat} {e : StreamEvent} {st : OpenStream}
      (he : e ≠ .closed) (hn : s.receiver = some n) (hs : s.stream = some st)
      (ht : t.stream = some (st.heard e))
      (hr : t.record =
        s.record ++ .received n (some e) :: e.payload?.toList.map fun bytes => .sent (.data bytes))
      (hk : t.receiver = s.receiver) (ho : t.opened = s.opened) : Flows s (.stream (some e)) t
  | exited {n : Nat} {e : Option StreamEvent} {st : OpenStream} {deadline : Option Nat}
      (he : e = none ∨ e = some .closed) (hn : s.receiver = some n) (hs : s.stream = some st)
      (hk : st.kind = .exec deadline) :
      Flows s (.stream e) ((s.note (.received n e)).released
        [.sent (.execExit st.exitCode st.exitSignal false), .called .closeStream (.ok ())])
  | broke {t : Session ρ} {n : Nat} {e : Option StreamEvent} {st : OpenStream}
      (he : (e = none ∨ e = some .closed) ∧ st.kind = .shell ∨ ∃ f, e = some (.failed f))
      (hn : s.receiver = some n) (hs : s.stream = some st)
      (h : Aside (s.note (.received n e)) t) (ht : t.stream = none) (hr : t.receiver = none) :
      Flows s (.stream e) t
  | expired {n : Nat} {st : OpenStream} {deadline : Nat} (hn : s.receiver = some n)
      (hs : s.stream = some st) (hk : st.kind = .exec (some deadline)) (hd : deadline ≤ s.clock) :
      Flows s .expire (s.released
        [.expired, .called .closeStream (.ok ()), .sent (.execExit none none true)])

theorem stream_broken (s : Session ρ) (f : Failure) :
    (s.broken f).stream = none ∧ (s.broken f).receiver = none := by
  unfold Session.broken
  split <;> exact ⟨rfl, rfl⟩

theorem Answers.flows_of_handled {m : Inbound} {σ : Stimulus} (hs : s.Coherent)
    (hσ : ∀ e, σ ≠ .stream e) (hu : Aside s u) (hr : u.record = s.record ++ [.handled m])
    (hp : u.phase = s.phase) (hc : u.clock = s.clock) (h : Answers u m t) : Flows s σ t := by
  rcases h.flows with ha | ⟨hconn, call, kind, ha⟩
  · exact .aside hσ (hu.trans ha)
  · have hn : s.receiver = none := by
      simpa [← hp, hconn] using hs.receiver
    refine .opened hσ hn (hc ▸ ha.opens) ?_ ha.stream (hu.opened ▸ ha.receiver)
      (hu.opened ▸ ha.opened)
    rw [ha.record, hr]
    simp

theorem Receives.flows {n : Nat} {e : Option StreamEvent} {st : OpenStream}
    (hn : s.receiver = some n) (hs : s.stream = some st)
    (h : Receives (s.note (.received n e)) e t) : Flows s (.stream e) t := by
  cases h with
  | output | extended => exact .heard (by simp) hn hs hs (by simp [StreamEvent.payload?]) rfl rfl
  | exitStatus hst | exitSignal hst =>
      obtain rfl := Option.some.inj (hs.symm.trans hst)
      exact .heard (by simp) hn hs rfl (by simp [StreamEvent.payload?, note]) rfl rfl
  | execClosed he hst hk =>
      obtain rfl := Option.some.inj (hs.symm.trans hst)
      exact .exited he hn hs hk
  | shellSignalled he hst hk _ =>
      obtain rfl := Option.some.inj (hs.symm.trans hst)
      exact .broke (.inl ⟨he, hk⟩) hn hs (.broken _ _) (stream_broken _ _).1 (stream_broken _ _).2
  | shellClosed he hst hk _ =>
      obtain rfl := Option.some.inj (hs.symm.trans hst)
      exact .broke (.inl ⟨he, hk⟩) hn hs (.ended _) rfl rfl
  | failed =>
      exact .broke (.inr ⟨_, rfl⟩) hn hs (.broken _ _) (stream_broken _ _).1 (stream_broken _ _).2

theorem Moves.flows {σ : Stimulus} (h : Moves s σ t) (hs : s.Coherent) : Flows s σ t := by
  cases h with
  | answered _ ha => exact ha.flows_of_handled hs (by simp) (.note s rfl) rfl rfl rfl
  | @resumed m rest _ _ _ _ ha =>
      have hu : Aside s ({ s with backlog := rest }.note (.handled m)) := .same rfl rfl rfl rfl rfl
      exact ha.flows_of_handled hs (by simp) hu rfl rfl rfl
  | queued _ _ | abandoned _ _ =>
      exact .aside (by simp) (.same (List.append_nil _).symm rfl rfl rfl rfl)
  | prompted _ _ | counted _ => exact .aside (by simp) (.note s rfl)
  | @connected c remote _ _ _ =>
      have hset : Aside s (s.settled remote (.ok ())) := .same rfl rfl rfl rfl rfl
      exact .aside (by simp) (hset.trans (.same rfl rfl rfl rfl rfl))
  | @rebuffed c remote f _ _ _ =>
      have hset : Aside s (s.settled remote (.error f)) := .same rfl rfl rfl rfl rfl
      exact .aside (by simp) (hset.trans (.rebuffed _ c f))
  | @givenUp c remote outcome _ _ _ =>
      have hset : Aside s (s.settled remote outcome) := .same rfl rfl rfl rfl rfl
      exact .aside (by simp) (hset.trans (.ended _))
  | resolved _ hv => exact .aside (by simp) (.vets hv)
  | departed _ => exact .aside (by simp) (.ended s)
  | received _ hn hr =>
      obtain ⟨st, hst⟩ := Option.isSome_iff_exists.mp
        (hs.stream.mpr (hs.receiver.mp (by simp [hn])))
      exact hr.flows hn hst
  | expired _ hd =>
      cases hst : s.stream with
      | none => simp [isDue, hst] at hd
      | some st =>
          obtain ⟨n, hn⟩ := Option.isSome_iff_exists.mp
            (hs.receiver.mpr (hs.stream.mp (by simp [hst])))
          obtain ⟨kind, code, signal⟩ := st
          cases kind with
          | shell => simp [isDue, hst, OpenStream.deadline?] at hd
          | exec deadline =>
              cases deadline with
              | none => simp [isDue, hst, OpenStream.deadline?] at hd
              | some deadline =>
                  exact .expired hn hst rfl (by simpa [isDue, hst, OpenStream.deadline?] using hd)

theorem Flows.record {σ : Stimulus} (h : Flows s σ t) : ∃ es, t.record = s.record ++ es := by
  cases h with
  | aside _ ha =>
      obtain ⟨es, hr, -⟩ := ha.record
      exact ⟨es, hr⟩
  | opened _ _ _ hr _ _ _ | heard _ _ _ _ hr _ _ => exact ⟨_, hr⟩
  | exited _ _ _ _ => exact ⟨_, List.append_assoc _ _ _⟩
  | broke _ _ _ ha _ _ =>
      obtain ⟨es, hr, -⟩ := ha.record
      exact ⟨_, hr.trans (List.append_assoc _ _ _)⟩
  | expired _ _ _ _ => exact ⟨_, rfl⟩

end Session

end TerminalGateway

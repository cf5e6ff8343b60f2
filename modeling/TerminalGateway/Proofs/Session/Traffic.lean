import TerminalGateway.Proofs.Session.Record
import TerminalGateway.Proofs.Session.Turns

/-!
The messages of a session on their way through it. Each is taken up once, in the order in which
they came; none stays in between for ever unless the session is cut short or its server side keeps
it waiting.
-/

namespace TerminalGateway.Session

variable {ρ : Type} {s t : Session ρ}

/-- The message that came, if one did. -/
def Stimulus.message? : Stimulus → Option Inbound
  | .message m => some m
  | _ => none

/-- What a session took from its client: what it handled and what it still keeps. -/
def taken (s : Session ρ) : List Inbound := Record.handled s.record ++ s.backlog

theorem Continues.handled (h : Continues s t) :
    Record.handled t.record = Record.handled s.record := by
  obtain ⟨es, hr, he⟩ := h.record
  rw [hr, Record.handled_append, Record.handled_eq_nil he, List.append_nil]

theorem Continues.taken (h : Continues s t) : t.taken = s.taken := by
  rw [Session.taken, Session.taken, h.handled, h.backlog]

/-! ### What is left to do -/

/-- How far a session is from the end of what it is about. -/
def pending (s : Session ρ) : Nat :=
  if s.lookup.isSome then 3
  else
    match s.attempt with
    | some a => if a.abandoned then 1 else 2
    | none => 0

/-- A measure of what is left to do for the messages that a session took. Each of them can begin one
more attempt to connect. -/
def load (s : Session ρ) : Nat := 4 * s.backlog.length + s.pending

/-- Stimuli that have no part in what becomes of a message. -/
def Stimulus.isAside : Stimulus → Bool
  | .stream _ | .countdown _ | .prompt _ | .expire | .elapse => true
  | _ => false

/-- Nothing changed that matters to the messages of a client. -/
structure Stays (s t : Session ρ) : Prop where
  continues : Continues s t
  lookup : t.lookup = s.lookup
  attempt : t.attempt = s.attempt
  goesOn : t.isClosing = s.isClosing

theorem pending_le (s : Session ρ) : s.pending ≤ 3 := by
  unfold pending
  repeat' split
  all_goals omega

theorem Continues.load_le (h : Continues s t) : t.load ≤ 4 * s.backlog.length + 3 := by
  have hp := t.pending_le
  rw [load, h.backlog]
  omega

theorem Stays.load (h : Stays s t) : t.load = s.load := by
  rw [Session.load, Session.load, pending, pending, h.continues.backlog, h.lookup, h.attempt]

theorem Stays.refl (s : Session ρ) : Stays s s :=
  ⟨(Keeps.refl s).continues, rfl, rfl, rfl⟩

theorem Stays.trans {u : Session ρ} (h : Stays s t) (h' : Stays t u) : Stays s u :=
  ⟨h.continues.trans h'.continues, h'.lookup.trans h.lookup, h'.attempt.trans h.attempt,
    h'.goesOn.trans h.goesOn⟩

theorem Stays.tick (s : Session ρ) : Stays s { s with clock := s.clock + 1 } :=
  ⟨⟨rfl, [], by simp, by simp⟩, rfl, rfl, rfl⟩

theorem Stays.note (s : Session ρ) {e : Entry} (he : e.isMinor = true) : Stays s (s.note e) :=
  ⟨(Keeps.note s he).continues, rfl, rfl, rfl⟩

/-! ### Moves -/

variable [Remote ρ]

theorem Moves.continues {σ : Stimulus} (h : Moves s σ t) (hσ : σ.message? = none)
    (hr : σ ≠ .resume) : Continues s t := by
  cases h.turns with
  | kept _ hk => exact hk.continues
  | queued _ | heard _ _ => simp [Stimulus.message?] at hσ
  | resumed _ _ _ => exact absurd rfl hr
  | resolved _ hv => exact hv.continues

theorem Answers.taken {m : Inbound} (h : Answers (s.note (.handled m)) m t) :
    t.taken = Record.handled s.record ++ m :: s.backlog := by
  rw [h.continues.taken, Session.taken, record_note, Record.handled_append]
  simp [Record.handled, Session.note]

/-- A message joins the others at their end, and the first one kept is the next to be handled. -/
theorem Moves.taken {σ : Stimulus} (h : Moves s σ t) :
    t.taken = s.taken ++ σ.message?.toList := by
  cases hm : σ.message? with
  | some m =>
      cases h with
      | answered hi ha =>
          obtain ⟨-, -, -, hb⟩ := isListening_iff.mp hi
          obtain rfl := Option.some.inj hm
          rw [ha.taken]
          simp [Session.taken, hb]
      | queued _ _ =>
          obtain rfl := Option.some.inj hm
          simp [Session.taken]
      | _ => simp [Stimulus.message?] at hm
  | none =>
      by_cases hr : σ = .resume
      · subst hr
        cases h with
        | resumed _ _ hb ha =>
            rw [Answers.taken ha]
            simp [Session.taken, hb]
      · simp [(h.continues hm hr).taken]

theorem isClosing_ended (s : Session ρ) : s.ended.isClosing = true := by
  simp [isClosing, Session.ended]

theorem isClosing_broken (s : Session ρ) (f : Failure) : (s.broken f).isClosing = true := by
  unfold Session.broken
  split <;> exact isClosing_ended _

theorem isClosing_rebuffed (s : Session ρ) (c : Credentials) (f : Failure) :
    (s.rebuffed c f).isClosing = true := by
  unfold Session.rebuffed
  exact isClosing_ended _

theorem Receives.stays {e : Option StreamEvent} (h : Receives s e t) (hc : s.isClosing = false) :
    t.isClosing = true ∨ Stays s t := by
  have hk : Continues s t := h.keeps.continues
  cases h with
  | output | extended => exact .inr (.note s rfl)
  | exitStatus _ | exitSignal _ => exact .inr ⟨hk, rfl, rfl, rfl⟩
  | execClosed _ _ _ =>
      exact .inr ⟨hk, rfl, rfl, by rw [hc]; rfl⟩
  | shellSignalled _ _ _ _ | failed => exact .inl (isClosing_broken _ _)
  | shellClosed _ _ _ _ => exact .inl (isClosing_ended _)

/-- A move ends the session, or brings it nearer to the end of its messages, or has nothing to do
with them. -/
theorem Moves.advances {σ : Stimulus} (h : Moves s σ t) (ho : s.Open) :
    t.isClosing = true ∨ t.load < s.load + 5 * σ.message?.toList.length ∨
      Stays s t ∧ σ.isAside = true := by
  cases h with
  | @answered m _ hi ha =>
      have hle : t.load ≤ 4 * s.backlog.length + 3 := ha.continues.load_le
      refine .inr (.inl ?_)
      simp only [Stimulus.message?, Option.toList, List.length_singleton]
      have hs : s.load = 4 * s.backlog.length + s.pending := rfl
      omega
  | @resumed m rest _ hl ha hb hans =>
      have hle : t.load ≤ 4 * rest.length + 3 := hans.continues.load_le
      refine .inr (.inl ?_)
      have hs : s.load = 4 * (rest.length + 1) + s.pending := by simp [load, hb]
      omega
  | queued hl ha => exact .inr (.inl (by simp [load, pending, hl, ha, Stimulus.message?]; omega))
  | abandoned hl ha => exact .inr (.inl (by simp [load, pending, hl, ha, Stimulus.message?]))
  | prompted _ _ => exact .inr (.inr ⟨.note s rfl, rfl⟩)
  | connected hl ha _ =>
      exact .inr (.inl (by simp [load, pending, hl, ha, welcomed, settled, Stimulus.message?]))
  | rebuffed _ _ _ => exact .inl (isClosing_rebuffed _ _ _)
  | givenUp _ _ _ | departed _ => exact .inl (isClosing_ended _)
  | resolved hl hv =>
      cases hv with
      | allowed _ =>
          refine .inr (.inl ?_)
          simp [load, pending, hl, Session.connect, vetted, Session.note, Stimulus.message?]
      | refused _ => exact .inl (isClosing_ended _)
  | received hi _ hr =>
      rcases hr.stays ho.goesOn with hc | hs
      · exact .inl hc
      · exact .inr (.inr ⟨(Stays.note s rfl).trans hs, rfl⟩)
  | counted _ => exact .inr (.inr ⟨.note s rfl, rfl⟩)
  | expired _ _ =>
      refine .inr (.inr ⟨⟨(Keeps.released s rfl).continues, rfl, rfl, ?_⟩, rfl⟩)
      rw [ho.goesOn]
      rfl

/-! ### The end -/

/-- What can put an end to a session before all its messages are handled. -/
inductive Cut (s : Session ρ) : Stimulus → Prop
  | message {m : Inbound} (h : s.isListening = true) : Cut s (.message m)
  | kept {m : Inbound} {rest : List Inbound} (h : s.backlog = m :: rest) : Cut s .resume
  | stream {n : Nat} {e : Option StreamEvent} (h : s.receiver = some n) : Cut s (.stream e)
  | refused {c : Credentials} {found : Except String (List Net.Address)}
      {refusal : Net.TargetRefusal} (hl : s.lookup = some c)
      (h : Net.judge s.config.ssh.allowedSubnets c.host found = .error refusal) :
      Cut s (.resolved found)
  | rebuffed {c : Credentials} {remote : ρ} {f : Failure} (ha : s.attempt = some ⟨c, false⟩)
      (h : Remote.settle s.remote = (remote, .error f)) : Cut s .settle
  | left {c : Credentials} (ha : s.attempt = some ⟨c, true⟩) : Cut s .settle

theorem Moves.cut {σ : Stimulus} (h : Moves s σ t) (ho : s.Open) (hc : t.isClosing = true) :
    Cut s σ ∨ σ = .departed ∧ s.isListening = true := by
  have hopen : s.isClosing ≠ true := by simp [ho.goesOn]
  cases h with
  | answered hi _ => exact .inl (.message hi)
  | resumed _ _ hb _ => exact .inl (.kept hb)
  | queued _ _ | abandoned _ _ | prompted _ _ | counted _ => exact absurd hc hopen
  | connected _ _ _ => simp [isClosing, welcomed] at hc
  | rebuffed _ ha hs => exact .inl (.rebuffed ha hs)
  | givenUp _ ha _ => exact .inl (.left ha)
  | resolved hl hv =>
      cases hv with
      | allowed _ => exact absurd hc hopen
      | refused hj => exact .inl (.refused hl hj)
  | departed hi => exact .inr ⟨rfl, hi⟩
  | received _ hr _ => exact .inl (.stream hr)
  | expired _ _ => simp [isClosing, released] at hc

end TerminalGateway.Session

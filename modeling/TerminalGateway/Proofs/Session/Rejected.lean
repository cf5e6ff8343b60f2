import TerminalGateway.Proofs.Config
import TerminalGateway.Proofs.Session.Operations
import TerminalGateway.Proofs.Session.Past
import TerminalGateway.Session.Scripted

/-!
Messages that a session rejects. Its client is told why, or nothing, and that is all: the session
goes on as one that was never sent the message.
-/

namespace TerminalGateway.Session

variable {ρ : Type} {s : Session ρ} {σ : Stimulus} {m : Inbound}

/-- A message that is none, or that asks for what the session is not ready for or does not allow. -/
def Rejects (s : Session ρ) : Inbound → Prop
  | .error _ => True
  | .ok (.terminal _) | .ok (.exec _) => s.phase ≠ .connected
  | .ok (.data _) => s.phase ≠ .streaming
  | .ok (.control .reauth) => s.permissions.allowReauth = false
  | .ok (.control .replayCredentials) =>
      s.permissions.allowReplay = false ∨ s.replayable? = none ∨ s.phase ≠ .streaming
  | _ => False

/-- What the client is told about a message that is rejected. -/
def retort (s : Session ρ) (m : Inbound) : List Entry :=
  (s.objection? m).toList.map fun text => .sent (.sshError text)

/-- The session without the message that it takes from its backlog, if it takes one from there. -/
def taking (s : Session ρ) (σ : Stimulus) : Session ρ :=
  if σ = .resume then { s with backlog := s.backlog.tail } else s

/-- Data without a stream and a second terminal are passed over, all else that is rejected is
objected to. -/
theorem Rejects.cases (h : s.Rejects m) :
    s.objection? m = none ∧ s.ignores m = true ∨
      (∃ text, s.objection? m = some text) ∧ s.ignores m = false := by
  match m with
  | .error rejection => exact .inr ⟨⟨_, rfl⟩, rfl⟩
  | .ok (.data _) => exact .inl ⟨rfl, by simpa [ignores, Rejects] using h⟩
  | .ok (.terminal _) =>
      have hp : s.phase ≠ .connected := h
      by_cases hs : s.phase = .streaming <;> simp [objection?, ignores, hp, hs]
  | .ok (.exec _) =>
      have hp : s.phase ≠ .connected := h
      simp [objection?, ignores, hp]
  | .ok (.control .reauth) =>
      have hp : s.permissions.allowReauth = false := h
      simp [objection?, ignores, hp]
  | .ok (.control .replayCredentials) =>
      have hp : s.permissions.allowReplay = false ∨ s.replayable? = none ∨ s.phase ≠ .streaming := h
      refine .inr ⟨?_, rfl⟩
      rw [← Option.isSome_iff_exists, Option.isSome_iff_ne_none]
      intro hn
      obtain ⟨hr, password, hw, hs⟩ := objection?_replay_eq_none hn
      simp [hr, hw, hs] at hp

variable [Remote ρ]

theorem handle_of_rejects (h : s.Rejects m) :
    s.handle m = { s with record := s.record ++ .handled m :: s.retort m } := by
  match m with
  | .error rejection => simp [handle, retort, objection?, emit, note]
  | .ok (.terminal r) =>
      have hp : s.phase ≠ .connected := h
      by_cases hs : s.phase = .streaming <;>
        simp [handle, onTerminal, retort, objection?, hp, hs, emit, note]
  | .ok (.exec r) =>
      have hp : s.phase ≠ .connected := h
      simp [handle, onExec, retort, objection?, hp, emit, note]
  | .ok (.data bytes) =>
      have hp : s.phase ≠ .streaming := h
      simp [handle, onData, retort, objection?, hp, note]
  | .ok (.control .reauth) =>
      have hp : s.permissions.allowReauth = false := h
      simp [handle, onControl, retort, objection?, hp, emit, note]
  | .ok (.control .replayCredentials) =>
      have hr : ∃ text, (s.note (.handled (.ok (.control .replayCredentials)))).objection?
          (.ok (.control .replayCredentials)) = some text := by
        rcases Rejects.cases h with ⟨-, hi⟩ | ⟨ho, -⟩
        · cases hi
        · exact ho
      obtain ⟨text, ho⟩ := hr
      have ho' : s.objection? (.ok (.control .replayCredentials)) = some text := ho
      simp only [handle, onControl, onReplay_of_objection ho]
      simp [retort, ho', emit, note]

theorem step_of_dispatched (h : s.dispatched? σ = some m) : s.step σ = (s.taking σ).handle m := by
  cases σ with
  | message m' =>
      obtain ⟨hi, rfl⟩ : s.isListening = true ∧ m' = m := by simpa [dispatched?] using h
      obtain ⟨hc, hl, ha, hb⟩ := isListening_iff.mp hi
      rw [step_of_listening hc hl ha hb (by simp)]
      rfl
  | resume =>
      obtain ⟨hh, hm⟩ : s.heeds .resume = true ∧ s.backlog.head? = some m := by
        simpa [dispatched?] using h
      obtain ⟨rest, hb⟩ := List.head?_eq_some_iff.mp hm
      obtain ⟨⟨⟨hc, hl⟩, ha⟩, -⟩ : ((s.isClosing = false ∧ s.lookup = none) ∧ s.attempt = none) ∧
          s.backlog ≠ [] := by simpa [heeds] using hh
      rw [step_of_backlog hc hl ha hb (by simp), taking, hb]
      rfl
  | _ => cases h

/-- A message that is rejected changes nothing. The client is told at most one thing, an error, and
nothing else is done: nothing is asked of the server side, and the session is as before in
everything but its record. So whatever happens then, it does the same as a session that never had
the message. -/
theorem rejected_changes_nothing (hd : s.dispatched? σ = some m) (hr : s.Rejects m) :
    s.step σ = { s.taking σ with record := s.record ++ .handled m :: s.retort m } ∧
    (s.retort m = [] ∧ s.ignores m = true ∨
      (∃ text, s.retort m = [.sent (.sshError text)]) ∧ s.ignores m = false) ∧
    ∀ τs : List Stimulus, ∃ new,
      ((s.taking σ).run τs).record = s.record ++ new ∧
      (s.step σ).run τs =
        { (s.taking σ).run τs with
          record := s.record ++ .handled m :: s.retort m ++ new } := by
  have hrecord : (s.taking σ).record = s.record := by
    unfold taking
    split <;> rfl
  have hsame : (s.taking σ).Rejects m ∧ (s.taking σ).retort m = s.retort m := by
    unfold taking
    split <;> exact ⟨hr, rfl⟩
  have hstep : s.step σ = { s.taking σ with record := s.record ++ .handled m :: s.retort m } := by
    rw [step_of_dispatched hd, handle_of_rejects hsame.1, hsame.2, hrecord]
  refine ⟨hstep, ?_, fun τs => ?_⟩
  · rcases hr.cases with ⟨ho, hi⟩ | ⟨⟨text, ho⟩, hi⟩
    · exact .inl ⟨by simp [retort, ho], hi⟩
    · exact .inr ⟨⟨text, by simp [retort, ho]⟩, hi⟩
  · -- Both sessions are one without a past, each with a past of its own.
    let bare : Session ρ := { s.taking σ with record := [] }
    have hbare : s.taking σ = bare.preceded s.record := by
      simp [bare, preceded, ← hrecord]
    have hthen : s.step σ = bare.preceded (s.record ++ .handled m :: s.retort m) := by
      rw [hstep]
      simp [bare, preceded]
    refine ⟨(bare.run τs).record, ?_, ?_⟩
    · rw [hbare, run_preceded]
      rfl
    · rw [hthen, hbare, run_preceded, run_preceded]
      rfl

/-- A terminal before the login, and then a login: the session ends as one that was only logged in,
but for what it did about the terminal. -/
theorem terminal_before_login :
    let s := start Config.standard ({} : Script) none []
    let login : List Stimulus :=
      [.message (.ok (.auth ⟨⟨"h", 22, "user", some "pw", none, none⟩, none, none⟩)), .settle]
    ∃ new, (s.run login).record = new ∧
      (s.step (.message (.ok (.terminal ⟨none, .standard⟩)))).run login =
        { s.run login with
          record :=
            .handled (.ok (.terminal ⟨none, .standard⟩)) ::
              .sent (.sshError "Terminal requested before authentication") :: new } := by
  intro s login
  have hp : s.Rejects (.ok (.terminal ⟨none, .standard⟩)) := nofun
  obtain ⟨-, -, h⟩ := rejected_changes_nothing (σ := .message _) rfl hp
  exact h login

end TerminalGateway.Session

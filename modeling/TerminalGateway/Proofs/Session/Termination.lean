import TerminalGateway.Proofs.Config
import TerminalGateway.Proofs.Drain.Rest
import TerminalGateway.Proofs.Session.Sources
import TerminalGateway.Proofs.Session.Traffic
import TerminalGateway.Proofs.Session.Troubles
import TerminalGateway.Service
import TerminalGateway.Session.Scripted

/-!
A session ends when its client has left it and what it still listens to has nothing more to say. It
closes its socket once, gives its place up once, and listens to its client no more once it has left.
-/

namespace TerminalGateway

namespace Session

variable {ρ : Type} [Remote ρ] {s t : Session ρ}

/-! ### The end -/

omit [Remote ρ] in
theorem Stands.parting {may : Bool} {xs : List Trouble} (h : Stands may s xs)
    (hc : s.isClosing = true) :
    s.phase = .closed ∧ ∃ before, s.record = before ++ farewell ∧ .socketClosed ∉ before ∧
      .left ∉ before := by
  have hnot : ∀ {before : List Entry} {told : List ServerEvent},
      (∀ e ∈ before, e.isLast = false) →
      .socketClosed ∉ before ++ told.map .sent ∧ .left ∉ before ++ told.map .sent := by
    intro before told he
    have hs : .socketClosed ∉ before := fun hm => by simpa [Entry.isLast] using he _ hm
    have hl : .left ∉ before := fun hm => by simpa [Entry.isLast] using he _ hm
    simp [hs, hl]
  cases h with
  | goesOn ho _ _ _ => simp [ho] at hc
  | left hp hr he _ _ | failed hp hr he _ => exact ⟨hp, _, hr, hnot he⟩

omit [Remote ρ] in
theorem Stands.staying {may : Bool} {xs : List Trouble} (h : Stands may s xs)
    (hc : s.isClosing = false) : .socketClosed ∉ s.record ∧ .left ∉ s.record := by
  cases h with
  | goesOn _ _ _ he =>
      exact ⟨fun hm => by simpa [Entry.isLast] using he _ hm,
        fun hm => by simpa [Entry.isLast] using he _ hm⟩
  | left hp _ _ _ _ | failed hp _ _ _ => simp [isClosing, hp] at hc

/-! ### A client that has left -/

/-- The session knows that its client has left. -/
def Deserted (s : Session ρ) : Prop :=
  s.isClosing = true ∨ s.lookup = none ∧ ∃ c, s.attempt = some ⟨c, true⟩

omit [Remote ρ] in
theorem Deserted.notHearing (h : s.Deserted) : s.isHearing = false := by
  rcases h with hc | ⟨hl, c, ha⟩
  · simp [isHearing, hc]
  · simp [isHearing, hl, ha]

theorem Deserted.step (h : s.Deserted) (hs : s.Coherent) (σ : Stimulus) : (s.step σ).Deserted := by
  rcases h with hc | ⟨hl, c, ha⟩
  · obtain ⟨n, hn⟩ := step_closing hc σ
    rw [hn]
    exact .inl hc
  have hi : s.isListening = false := by simp [isListening, ha]
  rcases hs.step_cases σ with ⟨-, heq⟩ | heq | ⟨-, hm⟩
  · rw [heq]
    exact .inr ⟨hl, c, ha⟩
  · rw [heq]
    exact .inr ⟨hl, c, ha⟩
  generalize s.step σ = t at hm
  cases hm with
  | answered h _ | departed h | received h _ _ | counted h | expired h _ => simp [hi] at h
  | resumed _ h _ _ => simp [ha] at h
  | queued _ h | abandoned _ h | connected _ h _ | rebuffed _ h _ => simp [ha] at h
  | resolved h _ => simp [hl] at h
  | prompted _ _ => exact .inr ⟨hl, c, ha⟩
  | givenUp _ _ _ => exact .inl (isClosing_ended _)

theorem Deserted.run (h : s.Deserted) (hs : s.Coherent) (σs : List Stimulus) :
    (s.run σs).Deserted := by
  induction σs generalizing s with
  | nil => exact h
  | cons σ σs ih => exact ih (h.step hs σ) (hs.step σ)

theorem deserted_of_departed (hs : s.Coherent) (hh : s.isHearing = true) :
    (s.step .departed).Deserted := by
  obtain ⟨-, hm⟩ := hs.moves_of_heeds (show s.heeds .departed = true from hh) (by simp)
  generalize s.step .departed = t at hm
  cases hm with
  | abandoned hl _ => exact .inr ⟨hl, _, rfl⟩
  | departed _ => exact .inl (isClosing_ended _)

theorem Receives.receiver {e : Option StreamEvent} (h : Receives s e t) :
    t.isClosing = true ∨ t.receiver = none ∨ t.receiver = s.receiver ∧ e.isSome = true := by
  cases h with
  | output | extended | exitStatus _ | exitSignal _ => exact .inr (.inr ⟨rfl, rfl⟩)
  | execClosed _ _ _ => exact .inr (.inl rfl)
  | shellSignalled _ _ _ _ | failed => exact .inl (isClosing_broken _ _)
  | shellClosed _ _ _ _ => exact .inl (isClosing_ended _)

end Session

namespace Sources

open Session

variable {ρ : Type} {k : Sources ρ} {t : Turn}

/-! ### Progress -/

/-- Something is there to be heard. That time passes does not count. -/
def Ready (k : Sources ρ) (t : Turn) : Prop := t ≠ .elapse ∧ (k.heard? t).isSome = true

/-- A measure of what is left to be heard: what the session may still do for its client, and then
what the other sources have left. -/
def left (k : Sources ρ) : Nat × Nat :=
  (5 * k.messages.length + k.session.load,
    k.countdown.length + k.prompts.length +
      k.session.receiver.elim 0 fun n => (k.streams n).length + 1)

/-- The order of what is left. -/
def Less : Nat × Nat → Nat × Nat → Prop := Prod.Lex (· < ·) (· < ·)

theorem less_wf : WellFounded Less := (Prod.lex Nat.lt_wfRel Nat.lt_wfRel).wf

theorem Less.trans {a b c : Nat × Nat} (h : Less a b) (h' : Less b c) : Less a c := by
  rw [Less, Prod.lex_def] at h h' ⊢
  omega

/-- Somebody gets a turn as long as anybody is ready, but nobody in particular. -/
def Lively [Remote ρ] (run : Nat → Sources ρ) (schedule : Nat → Turn) : Prop :=
  ∀ n, (∃ t, (run n).Ready t) → ∃ m, n ≤ m ∧ (run m).Ready (schedule m)

theorem ready_of_open (hc : k.session.isClosing = false) : ∃ t, k.Ready t := by
  cases hl : k.session.lookup with
  | some c => exact ⟨.lookup (.ok []), by simp, by simp [heard?, hc, hl]⟩
  | none =>
      cases ha : k.session.attempt with
      | some a => exact ⟨.settle, by simp, by simp [heard?, isConnecting, hc, hl, ha]⟩
      | none =>
          cases hb : k.session.backlog with
          | cons m rest => exact ⟨.resume, by simp, by simp [heard?, hc, hl, ha, hb]⟩
          | nil => exact ⟨.client, by simp, by simp [heard?, isHearing, hc, hl, ha, hb]⟩

variable [Remote ρ]

/-- The session did something for its client. -/
theorem less_of_load {σ : Session.Stimulus} (hs : k.session.Coherent) (h : k.heard? t = some σ)
    (ht : t ≠ .elapse) (hσ : σ.isAside = false)
    (hm : k.messages.length = (k.spent t).messages.length + σ.message?.toList.length) :
    (k.step t).session.isClosing = true ∨ Less (k.step t).left k.left := by
  rcases moves_of_heard hs h ht with ⟨ho, hmove⟩ | ⟨rfl, -⟩
  · rw [step_of_heard h]
    rcases hmove.advances ho with hc | hl | ⟨-, ha⟩
    · exact .inl hc
    · refine .inr (.left _ _ ?_)
      dsimp only
      omega
    · simp [hσ] at ha
  · simp only [heard?, Option.ite_none_right_eq_some, Option.map_eq_some_iff] at h
    obtain ⟨-, r, -, rfl⟩ := h
    simp [Stimulus.isAside] at hσ

omit [Remote ρ] in
/-- Nothing was done for the client, but some other source has less left. -/
theorem less_of_stays {k' : Sources ρ} (hs : Session.Stays k.session k'.session)
    (hm : k'.messages = k.messages) (h : k'.left.2 < k.left.2) : Less k'.left k.left := by
  have hfirst : k'.left.1 = k.left.1 := by simp [left, hm, hs.load]
  rw [← Prod.eta k'.left, ← Prod.eta k.left, hfirst]
  exact .right _ h

theorem less_of_countdown (h : k.Ready .countdown) :
    Less (k.step .countdown).left k.left := by
  obtain ⟨σ, hσ⟩ := Option.isSome_iff_exists.mp h.2
  rw [step_of_heard hσ]
  simp only [heard?, Option.ite_none_right_eq_some, Option.map_eq_some_iff] at hσ
  obtain ⟨hi, r, hr, rfl⟩ := hσ
  have hlen : k.countdown.tail.length < k.countdown.length := by
    cases hc : k.countdown <;> simp [hc] at hr ⊢
  obtain ⟨hc, hl, ha, hb⟩ := isListening_iff.mp hi
  rw [step_of_listening hc hl ha hb (by simp)]
  cases r with
  | value _ =>
      refine less_of_stays (.note _ rfl) rfl ?_
      simp only [left, spent, stepListening, emit, note]
      omega
  | lagged _ =>
      refine less_of_stays (.refl _) rfl ?_
      simp only [left, spent, stepListening]
      omega

theorem less_of_prompt (h : k.Ready .prompt) : Less (k.step .prompt).left k.left := by
  obtain ⟨σ, hσ⟩ := Option.isSome_iff_exists.mp h.2
  rw [step_of_heard hσ]
  simp only [heard?, Option.ite_none_right_eq_some, Option.map_eq_some_iff, isConnecting,
    Bool.and_eq_true, Bool.not_eq_true', Option.isNone_iff_eq_none] at hσ
  obtain ⟨⟨⟨hc, hl⟩, ha⟩, p, hp, rfl⟩ := hσ
  have hlen : k.prompts.tail.length < k.prompts.length := by
    cases hm : k.prompts <;> simp [hm] at hp ⊢
  obtain ⟨a, ha⟩ := Option.isSome_iff_exists.mp ha
  rw [step_of_attempt hc hl ha (by simp)]
  refine less_of_stays (.note _ rfl) rfl ?_
  simp only [left, spent, stepConnecting, emit, note]
  omega

theorem less_of_stream (hs : k.session.Coherent) (h : k.Ready .stream) :
    (k.step .stream).session.isClosing = true ∨ Less (k.step .stream).left k.left := by
  obtain ⟨σ, hσ⟩ := Option.isSome_iff_exists.mp h.2
  rw [step_of_heard hσ]
  simp only [heard?, Option.ite_none_right_eq_some, Option.map_eq_some_iff] at hσ
  obtain ⟨hi, n, hn, rfl⟩ := hσ
  have hh : k.session.heeds (.stream (k.streams n).head?) = true := by simp [heeds, hi, hn]
  obtain ⟨ho, hm⟩ := hs.moves_of_heeds hh (by simp)
  generalize k.session.step _ = u at hm
  cases hm with
  | @received i _ _ _ hr hrec =>
      rcases hrec.stays ho.goesOn with hc | hstays
      · exact .inl hc
      rcases hrec.receiver with hc | hnone | ⟨hsame, he⟩
      · exact .inl hc
      · refine .inr (less_of_stays ((Stays.note _ rfl).trans hstays) rfl ?_)
        simp [left, spent, hn, hnone]
      · refine .inr (less_of_stays ((Stays.note _ rfl).trans hstays) rfl ?_)
        have hrecv : u.receiver = some n := hsame.trans hn
        have hlen : (k.streams n).tail.length < (k.streams n).length := by
          cases hm : k.streams n <;> simp [hm] at he ⊢
        simp [left, spent, hn, hrecv]
        omega

theorem less_of_expire (hs : k.session.Coherent) (h : k.Ready .expire) :
    Less (k.step .expire).left k.left := by
  obtain ⟨σ, hσ⟩ := Option.isSome_iff_exists.mp h.2
  rw [step_of_heard hσ]
  simp only [heard?, Option.ite_none_right_eq_some, Option.some.injEq] at hσ
  obtain ⟨hi, rfl⟩ := hσ
  obtain ⟨ho, hm⟩ := hs.moves_of_heeds (show k.session.heeds .expire = true from hi) (by simp)
  have hstream : k.session.stream.isSome = true := by
    cases hst : k.session.stream with
    | none => simp [isDue, hst] at hi
    | some _ => rfl
  obtain ⟨n, hn⟩ := Option.isSome_iff_exists.mp (hs.receiver.mpr (hs.stream.mp hstream))
  generalize k.session.step _ = u at hm
  cases hm with
  | expired _ _ =>
      have hstays : Session.Stays k.session (k.session.released
          [.expired, .called .closeStream (.ok ()), .sent (.execExit none none true)]) :=
        ⟨(Keeps.released _ rfl).continues, rfl, rfl, by rw [ho.goesOn]; rfl⟩
      refine less_of_stays hstays rfl ?_
      simp [left, spent, released, hn]

theorem less_of_ready (hs : k.session.Coherent) (h : k.Ready t) :
    (k.step t).session.isClosing = true ∨ Less (k.step t).left k.left := by
  obtain ⟨σ, hσ⟩ := Option.isSome_iff_exists.mp h.2
  cases t with
  | elapse => exact absurd rfl h.1
  | client =>
      refine less_of_load hs hσ h.1 ?_ ?_
      all_goals
        simp only [heard?, Option.ite_none_right_eq_some, Option.some.injEq] at hσ
        obtain ⟨-, rfl⟩ := hσ
        cases hm : k.messages <;> simp [Stimulus.isAside, Stimulus.message?, spent, hm]
  | lookup _ | settle | resume =>
      refine less_of_load hs hσ h.1 ?_ ?_
      all_goals
        simp only [heard?, Option.ite_none_right_eq_some, Option.some.injEq] at hσ
        obtain ⟨-, rfl⟩ := hσ
        rfl
  | countdown => exact .inr (less_of_countdown h)
  | prompt => exact .inr (less_of_prompt h)
  | stream => exact less_of_stream hs h
  | expire => exact .inr (less_of_expire hs h)

/-- Whoever is not ready changes nothing of what is left. -/
theorem left_step_of_not_ready (h : ¬ k.Ready t) :
    (k.step t).left = k.left ∧ (k.step t).session.isClosing = k.session.isClosing := by
  by_cases ht : t = .elapse
  · subst ht
    have hh : k.heard? .elapse = some .elapse := rfl
    rw [step_of_heard hh, step_elapse]
    exact ⟨rfl, rfl⟩
  · rw [step_of_unheard (by simpa [Ready, ht] using h)]
    exact ⟨rfl, rfl⟩

/-- What is left does not grow. -/
theorem left_after (hs : k.session.Coherent) (schedule : Nat → Turn) {n m : Nat} (hnm : n ≤ m) :
    (∃ i, (k.after schedule i).session.isClosing = true) ∨
      (k.after schedule m).left = (k.after schedule n).left ∨
      Less (k.after schedule m).left (k.after schedule n).left := by
  induction hnm with
  | refl => exact .inr (.inl rfl)
  | @step m _ ih =>
      rcases ih with hc | hm
      · exact .inl hc
      by_cases hr : (k.after schedule m).Ready (schedule m)
      · rcases less_of_ready (coherent_after hs schedule m) hr with hc | hl
        · exact .inl ⟨m + 1, hc⟩
        · refine .inr (.inr ?_)
          rcases hm with heq | hlm
          · exact heq ▸ hl
          · exact hl.trans hlm
      · rw [after, (left_step_of_not_ready hr).1]
        exact .inr hm

theorem closes_of_lively (hs : k.session.Coherent) {schedule : Nat → Turn}
    (hl : Lively (k.after schedule) schedule) (n : Nat) :
    ∃ m, (k.after schedule m).session.isClosing = true := by
  -- on what is left: while the session goes on somebody is ready, and whoever is heard lessens it
  induction hleft : (k.after schedule n).left using less_wf.induction generalizing n with
  | h left ih =>
      subst hleft
      cases hc : (k.after schedule n).session.isClosing with
      | true => exact ⟨n, hc⟩
      | false =>
          obtain ⟨m, hnm, hr⟩ := hl n (ready_of_open hc)
          rcases left_after hs schedule hnm with ⟨i, hi⟩ | hm
          · exact ⟨i, hi⟩
          rcases less_of_ready (coherent_after hs schedule m) hr with hc' | hless
          · exact ⟨m + 1, hc'⟩
          · refine ih _ ?_ (m + 1) rfl
            rcases hm with heq | hlm
            · exact heq ▸ hless
            · exact hless.trans hlm

/-- Somebody who is heard last is enough. -/
theorem lively_of_closes (hs : k.session.Coherent) {schedule : Nat → Turn} {n : Nat}
    (hr : (k.after schedule n).Ready (schedule n))
    (hc : (k.after schedule (n + 1)).session.isClosing = true) :
    Lively (k.after schedule) schedule := by
  rintro i ⟨t, ht, hh⟩
  by_cases hi : i ≤ n
  · exact ⟨n, hi, hr⟩
  -- from there on the session is closed and hears nothing
  obtain ⟨σs, hi⟩ := k.session_after schedule (show n + 1 ≤ i by omega)
  obtain ⟨clock, hclock⟩ := run_closing hc σs
  have hci : (k.after schedule i).session.isClosing = true := by
    rw [hi, hclock]
    exact hc
  obtain ⟨σ, hσ⟩ := Option.isSome_iff_exists.mp hh
  have hne : σ ≠ .elapse := by
    rintro rfl
    exact ht (heard?_eq_elapse hσ)
  rcases moves_of_heard (coherent_after hs schedule i) hσ ht with ⟨ho, -⟩ | ⟨rfl, -⟩
  · simp [ho.goesOn] at hci
  · simp [heard?, isListening, hci] at hσ

theorem notHearing_after (hs : k.session.Coherent) (schedule : Nat → Turn) {n m : Nat}
    (h : (k.after schedule n).heard? (schedule n) = some .departed) (hnm : n < m) :
    (k.after schedule m).session.isHearing = false := by
  have hn := coherent_after hs schedule n
  have hh : (k.after schedule n).session.isHearing = true :=
    (heeds_of_heard h).resolve_right (by simp)
  have hnext : (k.after schedule (n + 1)).session =
      (k.after schedule n).session.step .departed := by rw [after, step_of_heard h]
  obtain ⟨σs, hm⟩ := k.session_after schedule (show n + 1 ≤ m from hnm)
  rw [hm, hnext]
  exact ((deserted_of_departed hn hh).run (hn.step _) σs).notHearing

end Sources

namespace Service

open Drain

variable {c : Coordinator} {id : SessionId}

/-! ### The coordinator -/

theorem calm_tell (h : c.Calm) {e : Entry} (he : e ≠ .left) :
    (tell id c e).Calm ∧ (tell id c e).guests = c.guests := by
  cases e with
  | retargeted label => exact h.retarget id label
  | left => exact absurd rfl he
  | _ => exact ⟨h, rfl⟩

theorem calm_told (id : SessionId) (h : c.Calm) {es : List Entry} (he : .left ∉ es) :
    (es.foldl (tell id) c).Calm ∧ (es.foldl (tell id) c).guests = c.guests := by
  induction es generalizing c with
  | nil => exact ⟨h, rfl⟩
  | cons e es ih =>
      rw [List.mem_cons, not_or] at he
      obtain ⟨hc, hg⟩ := calm_tell h (Ne.symm he.1)
      obtain ⟨hc', hg'⟩ := ih hc he.2
      exact ⟨hc', hg'.trans hg⟩

theorem live_told_of_staying (h : c.Calm) {es : List Entry} (he : .left ∉ es) :
    (es.foldl (tell id) c).board.live = c.board.live := by
  obtain ⟨hc, hg⟩ := calm_told id h he
  rw [hc.live, h.live, hg]

/-- A session that has ended is counted no more, and every other one is counted as before. -/
theorem live_told_of_parting (h : c.Calm) (hid : id ∈ c.guests) {before : List Entry}
    (he : .left ∉ before) :
    ((before ++ Session.farewell).foldl (tell id) c).board.live + 1 = c.board.live := by
  obtain ⟨hc, hg⟩ := calm_told id h he
  obtain ⟨hc', hp⟩ := hc.deregister (hg ▸ hid)
  have hlen := hp.length_eq
  rw [List.length_cons, hg, ← h.live, ← hc'.live] at hlen
  rw [List.foldl_append]
  exact hlen.symm

end Service

/-- As long as somebody who is ready gets a turn, a session comes to its end. Until then it keeps
its socket and its place; at its end it hangs up, closes its socket and gives up its place, each for
the last time, and that is all it ever does. Once it knows that its client has left it does not
listen to it any more. -/
theorem ends_once {ρ : Type} [Remote ρ] (config : Config) (remote : ρ)
    (cached : Option Credentials) (env : Environment.Pairs) (messages : List Inbound)
    (streams : Nat → List StreamEvent) (countdown : List (Drain.Reception Nat))
    (prompts : List InteractivePrompt) (schedule : Nat → Turn) :
    let run := (Sources.mk (Session.start config remote cached env) messages streams countdown
      prompts).after schedule
    (Sources.Lively run schedule → ∃ n, (run n).session.phase = .closed) ∧
    ∀ n, let s := (run n).session
      (s.isClosing = true →
        s.phase = .closed ∧
        (∃ before, s.record = before ++ [.called .hangUp (.ok ()), .socketClosed, .left] ∧
          .socketClosed ∉ before ∧ .left ∉ before) ∧
        (∀ id (c : Drain.Coordinator), c.Calm → id ∈ c.guests →
          (s.record.foldl (Service.tell id) c).board.live + 1 = c.board.live) ∧
        ∀ m, n ≤ m → (run m).session.phase = .closed ∧ (run m).session.record = s.record) ∧
      (s.isClosing = false →
        .socketClosed ∉ s.record ∧ .left ∉ s.record ∧
        ∀ id (c : Drain.Coordinator), c.Calm →
          (s.record.foldl (Service.tell id) c).board.live = c.board.live) ∧
      ((run n).heard? (schedule n) = some .departed →
        ∀ m, n < m → (run m).session.isHearing = false) := by
  intro run
  let k : Sources ρ :=
    ⟨Session.start config remote cached env, messages, streams, countdown, prompts⟩
  have hstart : (Session.start config remote cached env).Coherent :=
    Session.coherent_start config remote cached env
  have hstands : ∀ n, ∃ xs, (run n).session.Stands config.permissions.allowReauth xs := by
    intro n
    obtain ⟨σs, hn⟩ := k.session_after schedule (Nat.zero_le n)
    exact ⟨_, hn ▸ (Session.stands_start config remote cached env).run hstart σs⟩
  refine ⟨fun hl => ?_, fun n => ?_⟩
  · obtain ⟨n, hn⟩ := Sources.closes_of_lively hstart hl 0
    obtain ⟨xs, hx⟩ := hstands n
    exact ⟨n, (hx.parting hn).1⟩
  obtain ⟨xs, hx⟩ := hstands n
  refine ⟨fun hc => ?_, fun hc => ?_, fun hh m hnm => ?_⟩
  · obtain ⟨hp, before, hr, hsocket, hleft⟩ := hx.parting hc
    refine ⟨hp, ⟨before, hr, hsocket, hleft⟩, fun id c hcalm hid => ?_, fun m hnm => ?_⟩
    · rw [hr]
      exact Service.live_told_of_parting hcalm hid hleft
    · obtain ⟨σs, hm⟩ := k.session_after schedule hnm
      obtain ⟨clock, hclock⟩ := Session.run_closing hc σs
      rw [show (run m).session = _ from hm.trans hclock]
      exact ⟨hp, rfl⟩
  · obtain ⟨hsocket, hleft⟩ := hx.staying hc
    exact ⟨hsocket, hleft, fun _ _ hcalm => Service.live_told_of_staying hcalm hleft⟩
  · exact Sources.notHearing_after hstart schedule hh hnm

/-- A client that types into a shell. -/
def shellMessages : List Inbound :=
  [.ok (.auth ⟨⟨"h", 22, "user", some "pw", none, none⟩, none, none⟩),
    .ok (.terminal ⟨none, .standard⟩), .ok (.data [1])]

/-- The client leaves while its shell has more to say. -/
def shellSchedule (n : Nat) : Turn :=
  [.client, .settle, .client, .stream, .client, .client].getD n .elapse

theorem ends_once_shell :
    let run := (Sources.mk (Session.start Config.standard ({} : Script) none []) shellMessages
      (fun _ => [.data [2], .data [3]]) [] []).after shellSchedule
    let c := ((Drain.Coordinator.start 5).register "p").2
    let s := (run 6).session
    Sources.Lively run shellSchedule ∧ (∃ n, (run n).session.phase = .closed) ∧
    s.isClosing = true ∧ s.phase = .closed ∧ (run 9).session.record = s.record ∧
    c.Calm ∧ 0 ∈ c.guests ∧
    (s.record.foldl (Service.tell 0) c).board.live + 1 = c.board.live ∧
    (run 3).session.isClosing = false ∧ .left ∉ (run 3).session.record ∧
    (run 5).heard? (shellSchedule 5) = some .departed ∧ s.isHearing = false := by
  intro run c s
  have hc : (run 6).session.isClosing = true := by decide +kernel
  have ho : (run 3).session.isClosing = false := by decide +kernel
  have hr : (run 5).Ready (shellSchedule 5) := ⟨by decide, by decide +kernel⟩
  have hl : Sources.Lively run shellSchedule :=
    Sources.lively_of_closes (Session.coherent_start Config.standard ({} : Script) none []) hr hc
  have hcalm : c.Calm := ⟨by decide +kernel, by decide +kernel, by decide +kernel⟩
  have hid : 0 ∈ c.guests := by decide +kernel
  have hh : (run 5).heard? (shellSchedule 5) = some .departed := by decide +kernel
  obtain ⟨hend, hall⟩ := ends_once Config.standard ({} : Script) none [] shellMessages
    (fun _ => [.data [2], .data [3]]) [] [] shellSchedule
  obtain ⟨hp, -, hlive, hkeep⟩ := (hall 6).1 hc
  obtain ⟨-, hleft, -⟩ := (hall 3).2.1 ho
  -- up to the names of the run: the run itself is not to be computed here
  have hlast : (s.record.foldl (Service.tell 0) c).board.live + 1 = c.board.live := by
    simpa only [run, s] using hlive 0 c hcalm hid
  exact ⟨hl, hend hl, hc, hp, (hkeep 9 (by decide)).2, hcalm, hid, hlast, ho, hleft, hh,
    (hall 5).2.2 hh 6 (by decide)⟩

end TerminalGateway

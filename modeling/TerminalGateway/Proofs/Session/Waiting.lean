import TerminalGateway.Proofs.Config
import TerminalGateway.Proofs.Session.Operations
import TerminalGateway.Session.Scripted
import TerminalGateway.Session.Waiting

/-!
What a client is told while its session connects. Every question of the server comes through once,
in its order and before the outcome; then the client is welcomed, or told of a failure, or told
nothing because it has left. At no other time does it hear anything of the kind.
-/

namespace TerminalGateway

namespace Entry

/-- What an entry says about connections. -/
def notice? : Entry → Option Notice
  | .called (.connect c) _ => some (.began c)
  | .sent (.keyboardInteractive p) => some (.asked p)
  | .settled _ => some .finished
  | _ => none

/-- What a client is told of the outcome of an attempt to connect. -/
def isVerdict : Entry → Bool
  | .sent (.authResult _ _) | .sent (.permissions _) | .sent (.update _ _)
  | .sent (.getTerminal _) => true
  | _ => false

/-- Nothing about connections. -/
def isApart (e : Entry) : Bool := e.notice?.isNone && !e.isVerdict

theorem isApart_of_isParting {e : Entry} (h : e.isParting = true) : e.isApart = true := by
  unfold isParting at h
  split at h <;> simp_all [isApart, notice?, isVerdict]

end Entry

def Record.notices (record : List Entry) : List Notice := record.filterMap Entry.notice?

@[simp] theorem Record.notices_append (record es : List Entry) :
    notices (record ++ es) = notices record ++ notices es :=
  List.filterMap_append ..

theorem Record.notices_asked (ps : List InteractivePrompt) :
    notices (ps.map fun p => .sent (.keyboardInteractive p)) = ps.map .asked := by
  rw [notices, List.filterMap_map]
  exact congrFun List.filterMap_eq_map ps

namespace Session

variable {ρ : Type} {s t u : Session ρ}

/-! ### Sessions that do not connect -/

/-- A session went on and had nothing to do with connections. -/
structure Apart (s t : Session ρ) : Prop where
  attempt : t.attempt = s.attempt
  adds : Adds Entry.isApart s t

namespace Apart

theorem of_record {es : List Entry} (ha : t.attempt = s.attempt) (hr : t.record = s.record ++ es)
    (he : es.all Entry.isApart = true) : Apart s t :=
  ⟨ha, .of_record hr he⟩

theorem same (ha : t.attempt = s.attempt) (hr : t.record = s.record) : Apart s t :=
  ⟨ha, .same hr⟩

theorem of_parting (ha : t.attempt = s.attempt) (h : Adds Entry.isParting s t) : Apart s t :=
  ⟨ha, h.mono fun _ => Entry.isApart_of_isParting⟩

theorem after (h' : Apart t u) (h : Apart s t) : Apart s u :=
  ⟨h'.attempt.trans h.attempt, h.adds.trans h'.adds⟩

theorem notices (h : Apart s t) : Record.notices t.record = Record.notices s.record := by
  obtain ⟨es, hr, he⟩ := h.adds
  have hes : Record.notices es = [] := List.filterMap_eq_nil_iff.mpr fun e hm => by
    have hp := he e hm
    simp only [Entry.isApart, Bool.and_eq_true, Option.isNone_iff_eq_none] at hp
    exact hp.1
  rw [hr, Record.notices_append, hes, List.append_nil]

variable [Remote ρ]

theorem ended (s : Session ρ) : Apart s s.ended := of_parting rfl (.ended s)

theorem broken (s : Session ρ) (f : Failure) : Apart s (s.broken f) := by
  refine of_parting ?_ (.broken s f)
  unfold Session.broken
  split <;> rfl

theorem parted (s : Session ρ) : Apart s s.parted := by
  refine of_parting ?_ (.parted s)
  unfold Session.parted
  split <;> rfl

theorem failing_ended (s : Session ρ) (message : String) :
    Apart s (s.failing message (.sshError message)).ended :=
  of_parting rfl (.failing_ended s message)

end Apart

variable [Remote ρ]

/-- A session had nothing to do with connections, or began one. -/
def SetsOut (s t : Session ρ) : Prop := Apart s t ∨ ∃ u c, Apart s u ∧ t = u.connect c

theorem SetsOut.after (h : SetsOut t u) (ht : Apart s t) : SetsOut s u := by
  rcases h with h | ⟨v, c, hv, hu⟩
  · exact .inl (h.after ht)
  · exact .inr ⟨v, c, hv.after ht, hu⟩

theorem Vets.setsOut {c : Credentials} {found : Except String (List Net.Address)}
    (h : Vets s c found t) : SetsOut s t := by
  have hv : Apart s (s.vetted c found) := .of_record rfl rfl rfl
  cases h with
  | allowed _ => exact .inr ⟨_, c, hv, rfl⟩
  | refused _ => exact .inl ((Apart.failing_ended _ _).after hv)

theorem Approaches.setsOut {c : Credentials} (h : Approaches s c t) : SetsOut s t := by
  cases h with
  | unrestricted _ => exact .inr ⟨s, c, .same rfl rfl, rfl⟩
  | literal _ _ hv => exact hv.setsOut
  | named _ _ => exact .inl (.same rfl rfl)

theorem Answers.setsOut {m : Inbound} (h : Answers s m t) : SetsOut s t := by
  cases h with
  | objected _ => exact .inl (.of_record rfl rfl rfl)
  | ignored _ | forgot => exact .inl (.same rfl rfl)
  | unauthenticated _ => exact .inl ((Apart.failing_ended _ _).after (.parted s))
  | @authenticating r c _ _ ha =>
      have hb : Apart s.parted (s.parted.bound r c) := .same rfl rfl
      exact ha.setsOut.after (hb.after (.parted s))
  | shellOpened _ _ | execOpened _ _ | resized _ | wrote _ _ | replayed _ _ _ _ =>
      exact .inl (.of_record rfl rfl rfl)
  | shellFailed _ _ | execFailed _ _ | resizeFailed _ | writeFailed _ _ =>
      exact .inl ((Apart.broken _ _).after (.of_record rfl rfl rfl))
  | replayFailed _ _ _ _ => exact .inl ((Apart.failing_ended _ _).after (.of_record rfl rfl rfl))
  | reauthed _ => exact .inl ((Apart.ended _).after (.of_record rfl rfl rfl))
  | disconnected => exact .inl (.ended s)

theorem Receives.apart {e : Option StreamEvent} (h : Receives s e t) : Apart s t := by
  cases h with
  | output | extended | execClosed _ _ _ => exact .of_record rfl rfl rfl
  | exitStatus _ | exitSignal _ => exact .same rfl rfl
  | shellSignalled _ _ _ _ | failed => exact .broken s _
  | shellClosed _ _ _ _ => exact .ended s

theorem Moves.setsOut {σ : Stimulus} (h : Moves s σ t) (ha : s.attempt = none) : SetsOut s t := by
  cases h with
  | answered _ hans => exact hans.setsOut.after (.of_record rfl rfl rfl)
  | resumed _ _ _ hans => exact hans.setsOut.after (.of_record rfl rfl rfl)
  | queued _ hs | abandoned _ hs | prompted _ hs | connected _ hs _ | rebuffed _ hs _
  | givenUp _ hs _ => simp [ha] at hs
  | resolved _ hv => exact hv.setsOut
  | departed _ => exact .inl (.ended s)
  | received _ _ hr => exact .inl (hr.apart.after (.of_record rfl rfl rfl))
  | counted _ | expired _ _ => exact .inl (.of_record rfl rfl rfl)

theorem Coherent.setsOut (h : s.Coherent) (ha : s.attempt = none) (σ : Stimulus) :
    SetsOut s (s.step σ) := by
  rcases h.step_cases σ with ⟨-, hs⟩ | hs | ⟨-, hm⟩
  · exact .inl (.same (by rw [hs]) (by rw [hs]))
  · exact .inl (.same (by rw [hs]) (by rw [hs]))
  · exact hm.setsOut ha

/-! ### Sessions that connect -/

omit [Remote ρ] in
theorem Coherent.isClosing_of_attempt (h : s.Coherent) {a : Attempt} (ha : s.attempt = some a) :
    s.isClosing = false ∧ s.lookup = none := by
  have hp : s.phase = .authenticating := h.waiting.mpr (.inr (by simp [ha]))
  refine ⟨by simp [isClosing, hp], ?_⟩
  cases hl : s.lookup with
  | none => rfl
  | some c => simp [(h.resolving c hl).1] at ha

theorem Coherent.step_of_attempt (h : s.Coherent) {a : Attempt} (ha : s.attempt = some a)
    {σ : Stimulus} (hσ : σ ≠ .elapse) : s.step σ = s.stepConnecting a σ := by
  obtain ⟨hc, hl⟩ := h.isClosing_of_attempt ha
  exact Session.step_of_attempt hc hl ha hσ

theorem Coherent.step_waiting (h : s.Coherent) {a : Attempt} (ha : s.attempt = some a)
    {σ : Stimulus} (hp : ∀ p, σ ≠ .prompt p) (hs : σ ≠ .settle) :
    (s.step σ).record = s.record ∧ (σ ≠ .departed → (s.step σ).attempt = s.attempt) := by
  by_cases hσ : σ = .elapse
  · rw [hσ, step_elapse]
    exact ⟨rfl, fun _ => rfl⟩
  rw [h.step_of_attempt ha hσ]
  cases σ with
  | prompt p => exact absurd rfl (hp p)
  | settle => exact absurd rfl hs
  | departed => exact ⟨rfl, fun hd => absurd rfl hd⟩
  | message m =>
      simp only [stepConnecting]
      split <;> exact ⟨rfl, fun _ => rfl⟩
  | _ => exact ⟨rfl, fun _ => rfl⟩

/-- The questions that a session passes on make no other difference to it. -/
theorem Coherent.run_prompts (h : s.Coherent) {a : Attempt} (ha : s.attempt = some a)
    (ps : List InteractivePrompt) : s.run (ps.map .prompt) =
      { s with record := s.record ++ ps.map fun p => .sent (.keyboardInteractive p) } := by
  induction ps generalizing s with
  | nil => simp [Session.run]
  | cons p ps ih =>
      have hs : s.step (.prompt p) = s.emit (.keyboardInteractive p) :=
        h.step_of_attempt ha (by simp)
      have hrun : s.run ((p :: ps).map .prompt) =
          (s.emit (.keyboardInteractive p)).run (ps.map .prompt) := by
        rw [← hs]
        rfl
      rw [hrun, ih (h.emit _) ha, record_emit, List.append_assoc]
      rfl

/-- What a client is told when an attempt to connect has come to its end. -/
inductive Concludes (p : Permissions) : Attempt → Outcome → List Entry → Prop
  | given {c : Credentials} {outcome : Outcome} : Concludes p ⟨c, true⟩ outcome farewell
  | welcomed {c : Credentials} : Concludes p ⟨c, false⟩ (.ok ()) (welcome p c.label)
  | rebuffed {c : Credentials} {f : Failure} {invitation : List Entry}
      (h : invitation = [] ∨ invitation = [.sent .reauth]) :
      Concludes p ⟨c, false⟩ (.error f)
        (.sent (.authResult false (some (f.userMessage c.host c.port))) :: invitation ++ farewell)

theorem Coherent.concludes (h : s.Coherent) {a : Attempt} (ha : s.attempt = some a) :
    (s.step .settle).attempt = none ∧ ∃ tail,
      (s.step .settle).record = s.record ++ .settled (Remote.settle s.remote).2 :: tail ∧
      Concludes s.permissions a (Remote.settle s.remote).2 tail := by
  have hh : s.heeds .settle = true := by
    obtain ⟨hc, hl⟩ := h.isClosing_of_attempt ha
    simp [heeds, hc, hl, ha]
  obtain ⟨-, hm⟩ := h.moves_of_heeds hh (by simp)
  generalize s.step .settle = t at hm
  cases hm with
  | connected _ hs hr =>
      obtain rfl := Option.some.inj (ha.symm.trans hs)
      rw [hr]
      exact ⟨rfl, _, List.append_assoc .., .welcomed⟩
  | @rebuffed c remote f _ hs hr =>
      obtain rfl := Option.some.inj (ha.symm.trans hs)
      obtain ⟨_, _, invitation, -, hi, hb⟩ := (s.settled remote (.error f)).exists_rebuffed c f
      rw [hr, hb]
      refine ⟨rfl, _, ?_, .rebuffed hi⟩
      simp [Session.ended, settled]
  | givenUp _ hs hr =>
      obtain rfl := Option.some.inj (ha.symm.trans hs)
      rw [hr]
      exact ⟨rfl, _, List.append_assoc .., .given⟩

omit [Remote ρ] in
theorem Concludes.notices {p : Permissions} {a : Attempt} {outcome : Outcome}
    {tail : List Entry} (h : Concludes p a outcome tail) : Record.notices tail = [] := by
  cases h with
  | given | welcomed => rfl
  | rebuffed h => rcases h with rfl | rfl <;> rfl

end Session

namespace Waiting

variable {ρ : Type} {w : Waiting ρ}

/-- What the record does not tell of yet. -/
def coming (w : Waiting ρ) : List Notice :=
  w.questions.map .asked ++ if w.finished then [.finished] else []

/-- An attempt is the one begun last, and the client has left since then if it is abandoned. -/
def Current (a : Attempt) (ns : List Notice) : Prop :=
  ∃ before during, ns = before ++ .began a.credentials :: during ∧ (∀ c, .began c ∉ during) ∧
    (a.abandoned = true ↔ .gone ∈ during)

theorem current_began (ns : List Notice) (c : Credentials) :
    Current ⟨c, false⟩ (ns ++ [.began c]) :=
  ⟨ns, [], rfl, by simp, by simp⟩

theorem Current.snoc {a : Attempt} {ns : List Notice} (h : Current a ns) {n : Notice}
    (hb : ∀ c, n ≠ .began c) (hg : n ≠ .gone) : Current a (ns ++ [n]) := by
  obtain ⟨before, during, rfl, hd, ha⟩ := h
  refine ⟨before, during ++ [n], by simp, fun c hm => ?_, ?_⟩
  · rcases List.mem_append.mp hm with hm | hm
    · exact hd c hm
    · exact hb c (List.mem_singleton.mp hm).symm
  · rw [ha, List.mem_append, List.mem_singleton]
    exact ⟨.inl, fun hm => hm.resolve_right (Ne.symm hg)⟩

theorem Current.left {a : Attempt} {ns : List Notice} (h : Current a ns) :
    Current { a with abandoned := true } (ns ++ [.gone]) := by
  obtain ⟨before, during, rfl, hd, -⟩ := h
  exact ⟨before, during ++ [.gone], by simp, by simpa using hd, by simp⟩

/-- The record tells of everything that was done about connections, as far as the session has
looked. -/
structure Accounted (w : Waiting ρ) : Prop where
  coherent : w.session.Coherent
  told : w.notices.filter (· ≠ .gone) = Record.notices w.session.record ++ w.coming
  rested : w.session.attempt = none → w.questions = [] ∧ w.finished = false
  current : ∀ a, w.session.attempt = some a → Current a w.notices

variable [Remote ρ]

/-- A session that waits goes on as it does by itself, with the same things happening to it in the
order in which it takes notice of them. -/
theorem session_step (w : Waiting ρ) (e : Event) :
    ∃ σs, (w.step e).session = w.session.run σs := by
  have hsame : ∃ σs, w.session = w.session.run σs := ⟨[], rfl⟩
  have hone : ∀ σ, ∃ σs, w.session.step σ = w.session.run σs := fun σ => ⟨[σ], rfl⟩
  match e with
  | .looks =>
      simp only [step, look]
      split
      · exact ⟨_, rfl⟩
      · split
        · exact hsame
        next p _ _ => exact hone (.prompt p)
  | .happens σ =>
      simp only [step]
      cases w.session.attempt with
      | none => exact hone σ
      | some a =>
          cases σ with
          | prompt _ | settle =>
              simp only [stepConnecting]
              split <;> exact hsame
          | message m =>
              simp only [stepConnecting]
              split
              · exact hone (.message m)
              · exact hsame
          | departed =>
              simp only [stepConnecting]
              split
              · exact hone .departed
              · exact hsame
          | _ =>
              simp only [stepConnecting]
              exact hone _

theorem session_run (w : Waiting ρ) (es : List Event) :
    ∃ σs, (w.run es).session = w.session.run σs := by
  induction es generalizing w with
  | nil => exact ⟨[], rfl⟩
  | cons e es ih =>
      obtain ⟨σs, hstep⟩ := w.session_step e
      obtain ⟨τs, hrun⟩ := ih (w.step e)
      refine ⟨σs ++ τs, ?_⟩
      rw [show w.run (e :: es) = (w.step e).run es from rfl, hrun, hstep, Session.run_append]

/-! ### Looking -/

theorem look_cases (h : w.session.Coherent) {a : Attempt} (ha : w.session.attempt = some a)
    (hf : w.finished = true) :
    w.look.session.attempt = none ∧ ∃ tail,
      w.look.session.record = w.session.record ++
        w.questions.map (fun p => .sent (.keyboardInteractive p)) ++
        .settled (Remote.settle w.session.remote).2 :: tail ∧
      Session.Concludes w.session.permissions a (Remote.settle w.session.remote).2 tail := by
  have hasked := h.run_prompts ha w.questions
  have hc : (w.session.run (w.questions.map .prompt)).Coherent := h.run _
  have hlook : w.look.session = (w.session.run (w.questions.map .prompt)).step .settle := by
    simp [look, hf, Session.run]
  rw [hlook]
  rw [hasked] at hc ⊢
  exact hc.concludes ha

namespace Accounted

theorem stepAside (h : w.Accounted) (ha : w.session.attempt = none) (σ : Session.Stimulus) :
    (w.stepAside σ).Accounted := by
  obtain ⟨hq, hf⟩ := h.rested ha
  have hcoming : (w.stepAside σ).coming = [] := by simp [coming, Waiting.stepAside, hq, hf]
  have htold : w.notices.filter (· ≠ .gone) = Record.notices w.session.record := by
    simpa [coming, hq, hf] using h.told
  rcases h.coherent.setsOut ha σ with hs | ⟨u, c, hu, hc⟩
  · have hn : (w.session.step σ).attempt = none := hs.attempt.trans ha
    have hsame : (w.stepAside σ).notices = w.notices := by simp [Waiting.stepAside, hn]
    refine ⟨h.coherent.step σ, ?_, fun _ => ⟨hq, hf⟩, fun a hs' => ?_⟩
    · rw [hsame, hcoming, List.append_nil, htold]
      exact hs.notices.symm
    · exact absurd (hn.symm.trans hs') (by simp)
  · have hn : (w.session.step σ).attempt = some ⟨c, false⟩ := by rw [hc]; rfl
    have hmore : (w.stepAside σ).notices = w.notices ++ [.began c] := by
      simp [Waiting.stepAside, hn]
    refine ⟨h.coherent.step σ, ?_, fun hs => ?_, fun a hs => ?_⟩
    · have hrec : (w.stepAside σ).session.record = u.record ++ [.called (.connect c) (.ok ())] := by
        rw [Waiting.stepAside, hc]
        rfl
      rw [hmore, hcoming, List.append_nil, List.filter_append, htold, hrec, Record.notices_append,
        hu.notices]
      rfl
    · exact absurd (hn.symm.trans hs) (by simp)
    · obtain rfl := Option.some.inj (hn.symm.trans hs)
      exact hmore ▸ current_began _ c

theorem record_stepConnecting (h : w.Accounted) {a : Attempt} (ha : w.session.attempt = some a)
    (σ : Session.Stimulus) : (w.stepConnecting a σ).session.record = w.session.record := by
  cases σ with
  | prompt _ | settle | message _ | departed =>
      simp only [Waiting.stepConnecting]
      split <;> first | rfl | exact (h.coherent.step_waiting ha (by simp) (by simp)).1
  | _ => exact (h.coherent.step_waiting ha (by simp) (by simp)).1

theorem stepConnecting (h : w.Accounted) {a : Attempt} (ha : w.session.attempt = some a)
    (σ : Session.Stimulus) : (w.stepConnecting a σ).Accounted := by
  have hbusy : w.session.attempt ≠ none := by simp [ha]
  -- what the session does not see changes only what is still to come
  have hunseen : ∀ n questions finished, (∀ c, n ≠ .began c) → n ≠ .gone →
      { w with questions, finished, notices := w.notices ++ [n] : Waiting ρ }.coming =
        w.coming ++ [n] →
      { w with questions, finished, notices := w.notices ++ [n] : Waiting ρ }.Accounted := by
    intro n questions finished hb hg hcoming
    refine ⟨h.coherent, ?_, fun hs => absurd hs hbusy, fun a hs => (h.current a hs).snoc hb hg⟩
    rw [hcoming, List.filter_append, h.told, ← List.append_assoc]
    simp [hg]
  have hkept : ∀ τ : Session.Stimulus, (∀ p, τ ≠ .prompt p) → τ ≠ .settle → τ ≠ .departed →
      { w with session := w.session.step τ : Waiting ρ }.Accounted := by
    intro τ hp hs hd
    obtain ⟨hrecord, hattempt⟩ := h.coherent.step_waiting ha hp hs
    have hattempt := hattempt hd
    refine ⟨h.coherent.step τ, ?_, fun hs => absurd (hattempt.symm.trans hs) hbusy,
      fun a hs => h.current a (hattempt.symm.trans hs)⟩
    rw [hrecord]
    exact h.told
  cases σ with
  | prompt p =>
      simp only [Waiting.stepConnecting]
      split
      · exact h
      next hf => exact hunseen _ _ _ (by simp) (by simp) (by simp [coming, hf])
  | settle =>
      simp only [Waiting.stepConnecting]
      split
      · exact h
      next hf => exact hunseen _ _ _ (by simp) (by simp) (by simp [coming, hf])
  | message m =>
      simp only [Waiting.stepConnecting]
      split
      · exact hkept _ (by simp) (by simp) (by simp)
      · exact h
  | departed =>
      simp only [Waiting.stepConnecting]
      split
      next =>
        have hstep : w.session.step .departed =
            { w.session with attempt := some { a with abandoned := true } } :=
          h.coherent.step_of_attempt ha (by simp)
        refine ⟨h.coherent.step .departed, ?_, fun hs => ?_, fun b hs => ?_⟩
        · rw [hstep, List.filter_append, h.told]
          exact List.append_nil _
        · rw [hstep] at hs
          simp at hs
        · rw [hstep] at hs
          obtain rfl := Option.some.inj hs
          exact (h.current a ha).left
      · exact h
  | _ => exact hkept _ (by simp) (by simp) (by simp)

omit [Remote ρ] in
theorem attempt_of_finished (h : w.Accounted) (hf : w.finished = true) :
    ∃ a, w.session.attempt = some a := by
  cases ha : w.session.attempt with
  | none => simp [(h.rested ha).2] at hf
  | some a => exact ⟨a, rfl⟩

omit [Remote ρ] in
theorem attempt_of_questions (h : w.Accounted) {p : InteractivePrompt}
    {rest : List InteractivePrompt} (hq : w.questions = p :: rest) :
    ∃ a, w.session.attempt = some a := by
  cases ha : w.session.attempt with
  | none => simp [(h.rested ha).1] at hq
  | some a => exact ⟨a, rfl⟩

theorem look (h : w.Accounted) : w.look.Accounted := by
  have hcoherent : w.look.session.Coherent := by
    obtain ⟨σs, hs⟩ := w.session_step .looks
    exact hs ▸ h.coherent.run σs
  cases hf : w.finished with
  | true =>
      obtain ⟨a, ha⟩ := h.attempt_of_finished hf
      obtain ⟨hn, tail, hr, hc⟩ := look_cases h.coherent ha hf
      have hrest : w.look.questions = [] ∧ w.look.finished = false ∧
          w.look.notices = w.notices := by
        simp [Waiting.look, hf]
      refine ⟨hcoherent, ?_, fun _ => ⟨hrest.1, hrest.2.1⟩, fun b hs => ?_⟩
      · rw [hrest.2.2, h.told, hr]
        rw [Record.notices_append, Record.notices_append, Record.notices_asked]
        have htail : Record.notices (.settled (Remote.settle w.session.remote).2 :: tail) =
            [.finished] := congrArg (Notice.finished :: ·) hc.notices
        simp [coming, hrest, hf, htail]
      · exact absurd (hn.symm.trans hs) (by simp)
  | false =>
      cases hq : w.questions with
      | nil =>
          have hsame : w.look = w := by simp [Waiting.look, hf, hq]
          rwa [hsame]
      | cons p rest =>
          obtain ⟨a, ha⟩ := h.attempt_of_questions hq
          have hstep : w.session.step (.prompt p) = w.session.emit (.keyboardInteractive p) :=
            h.coherent.step_of_attempt ha (by simp)
          have hlook : w.look =
              { w with
                session := w.session.emit (.keyboardInteractive p)
                questions := rest } := by
            simp [Waiting.look, hf, hq, hstep]
          rw [hlook] at hcoherent ⊢
          refine ⟨hcoherent, ?_, fun hs => ?_, fun b hs => h.current b hs⟩
          · rw [h.told]
            simp [coming, hq, Record.notices, Entry.notice?]
          · exact absurd (ha.symm.trans hs) (by simp)

theorem step (h : w.Accounted) (e : Event) : (w.step e).Accounted := by
  cases e with
  | looks => exact h.look
  | happens σ =>
      simp only [Waiting.step]
      cases ha : w.session.attempt with
      | none => exact h.stepAside ha σ
      | some a => exact h.stepConnecting ha σ

theorem run (h : w.Accounted) (es : List Event) : (w.run es).Accounted := by
  induction es generalizing w with
  | nil => exact h
  | cons e es ih => exact ih (h.step e)

/-- A client hears of an outcome only when its session looks after the end of an attempt. -/
theorem quiet (h : w.Accounted) {e : Event} (he : e = .looks → w.finished = false) :
    Session.Adds (!·.isVerdict) w.session (w.step e).session := by
  have hapart : ∀ x : Entry, x.isApart = true → (!x.isVerdict) = true := by
    intro x hx
    simp only [Entry.isApart, Bool.and_eq_true] at hx
    exact hx.2
  cases e with
  | looks =>
      simp only [Waiting.step, Waiting.look, he rfl]
      cases hq : w.questions with
      | nil => exact .same rfl
      | cons p rest =>
          obtain ⟨a, ha⟩ := h.attempt_of_questions hq
          have hstep : w.session.step (.prompt p) = w.session.emit (.keyboardInteractive p) :=
            h.coherent.step_of_attempt ha (by simp)
          exact ⟨_, congrArg Session.record hstep, by simp [Entry.isVerdict]⟩
  | happens σ =>
      simp only [Waiting.step]
      cases ha : w.session.attempt with
      | none =>
          rcases h.coherent.setsOut ha σ with hs | ⟨u, c, hu, hc⟩
          · exact hs.adds.mono hapart
          · have hb : Session.Adds (!·.isVerdict) u (w.stepAside σ).session :=
              .of_record (congrArg Session.record hc) rfl
            exact (hu.adds.mono hapart).trans hb
      | some a => exact .same (h.record_stepConnecting ha σ)

end Accounted

omit [Remote ρ] in
theorem accounted_start (config : Config) (remote : ρ) (cached : Option Credentials)
    (env : Environment.Pairs) :
    Accounted { session := Session.start config remote cached env } where
  coherent := Session.coherent_start config remote cached env
  told := rfl
  rested := fun _ => ⟨rfl, rfl⟩
  current := by simp [Session.start]

/-- However the server side and the client of a session go about it while it connects, the record
tells of every attempt and every question once and in their order, each question before the end of
its attempt, and nothing is left over when the attempt is done with. With the end of an attempt, and
at no other time, the client is told of the outcome: it is welcomed without a break to the host that
was connected, or told of the failure, or told nothing if it has left. -/
theorem outcome_told_once (config : Config) (remote : ρ) (cached : Option Credentials)
    (env : Environment.Pairs) (es : List Event) :
    let begun : Waiting ρ := { session := Session.start config remote cached env }
    let w := begun.run es
    let outcome := (Remote.settle w.session.remote).2
    (∃ σs, w.session = begun.session.run σs) ∧
    w.notices.filter (· ≠ .gone) = Record.notices w.session.record ++ w.coming ∧
    (w.session.attempt = none → w.coming = []) ∧
    (∀ a, w.session.attempt = some a → Current a w.notices ∧
      Record.lastConnection? w.session.record = some (a.credentials, none)) ∧
    (w.finished = true → ∃ a tail, w.session.attempt = some a ∧
      (w.step .looks).session.attempt = none ∧
      (w.step .looks).session.record = w.session.record ++
        w.questions.map (fun p => .sent (.keyboardInteractive p)) ++ .settled outcome :: tail ∧
      Session.Concludes config.permissions a outcome tail) ∧
    (∀ e, (e = .looks → w.finished = false) →
      ∃ new, (w.step e).session.record = w.session.record ++ new ∧
        ∀ x ∈ new, x.isVerdict = false) := by
  intro begun w outcome
  have h : w.Accounted := (accounted_start config remote cached env).run es
  obtain ⟨σs, hrun⟩ := begun.session_run es
  have hset : w.session.settings = (config, config.permissions) := by
    rw [hrun]
    exact (Session.coherent_start config remote cached env).settings_run σs
  have hp : w.session.permissions = config.permissions := (Prod.mk.inj hset).2
  refine ⟨⟨σs, hrun⟩, h.told, fun ha => ?_, fun a ha => ?_, fun hf => ?_, fun e he => ?_⟩
  · simp [coming, h.rested ha]
  · exact ⟨h.current a ha, (h.coherent.connecting a ha).2⟩
  · obtain ⟨a, ha⟩ := h.attempt_of_finished hf
    obtain ⟨hn, tail, hr, hc⟩ := look_cases h.coherent ha hf
    exact ⟨a, tail, ha, hn, hr, hp ▸ hc⟩
  · obtain ⟨new, hr, hnew⟩ := h.quiet he
    exact ⟨new, hr, by simpa using hnew⟩

/-- A server that asks twice; in between the client sends a word, and the second question comes
together with the end. -/
def pressing : List Event :=
  [.happens (.message (.ok (.auth ⟨⟨"h", 22, "user", some "pw", none, none⟩, none, none⟩))),
    .happens (.prompt ⟨"first", "", []⟩), .looks, .happens (.message (.ok (.data [104]))),
    .happens (.prompt ⟨"second", "", []⟩), .happens .settle]

theorem outcome_told_once_pressing :
    let begun : Waiting Script := { session := Session.start Config.standard {} none [] }
    let w := begun.run pressing
    w.finished = true ∧ w.session.backlog = [.ok (.data [104])] ∧
    Record.events w.session.record = [.keyboardInteractive ⟨"first", "", []⟩] ∧
    (w.step .looks).session.record = w.session.record ++
      [.sent (.keyboardInteractive ⟨"second", "", []⟩), .settled (.ok ())] ++
      Session.welcome Config.standard.permissions "ssh://h:22" := by
  intro begun w
  obtain ⟨-, -, -, -, hends, -⟩ := outcome_told_once Config.standard ({} : Script) none [] pressing
  rw [show Waiting.run { session := Session.start Config.standard {} none [] } pressing = w from
    rfl] at hends
  have hf : w.finished = true := by decide +kernel
  have hb : w.session.backlog = [.ok (.data [104])] := by decide +kernel
  have he : Record.events w.session.record = [.keyboardInteractive ⟨"first", "", []⟩] := by
    decide +kernel
  have hq : w.questions = [⟨"second", "", []⟩] := by decide +kernel
  have hp : w.session.attempt = some ⟨⟨"h", 22, "user", some "pw", none, none⟩, false⟩ := by
    decide +kernel
  have ho : (Remote.settle w.session.remote).2 = .ok () := by decide +kernel
  have hlabel : Credentials.label ⟨"h", 22, "user", some "pw", none, none⟩ = "ssh://h:22" := by
    decide +kernel
  clear_value w
  obtain ⟨a, tail, ha, -, hr, hc⟩ := hends hf
  obtain rfl := Option.some.inj (ha.symm.trans hp)
  rw [ho] at hr hc
  cases hc with
  | welcomed => exact ⟨hf, hb, he, by simpa [hq, hlabel] using hr⟩

end Waiting

end TerminalGateway

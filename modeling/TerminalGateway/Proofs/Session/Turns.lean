import TerminalGateway.Proofs.Session.Moves

/-!
What moves leave alone. Most of them say nothing about a target and keep the settings; only an
authentication request and the end of a look-up say more.
-/

namespace TerminalGateway

/-- Neither a message nor a word about a target. -/
def Entry.isMinor : Entry → Bool
  | .handled _ | .vetted _ _ | .called (.connect _) _ => false
  | _ => true

namespace Session

variable {ρ : Type} {s t u : Session ρ}

structure Keeps (s t : Session ρ) : Prop where
  config : t.config = s.config
  cached : t.cached = none ∨ t.cached = s.cached
  lookup : t.lookup = s.lookup
  backlog : t.backlog = s.backlog
  record : ∃ es, t.record = s.record ++ es ∧ ∀ e ∈ es, e.isMinor = true

theorem Keeps.of_record (hc : t.config = s.config) (hk : t.cached = none ∨ t.cached = s.cached)
    (hl : t.lookup = s.lookup) (hb : t.backlog = s.backlog) {es : List Entry}
    (hr : t.record = s.record ++ es) (he : es.all Entry.isMinor = true) : Keeps s t :=
  ⟨hc, hk, hl, hb, es, hr, List.all_eq_true.mp he⟩

theorem Keeps.of_same (hc : t.config = s.config) (hk : t.cached = none ∨ t.cached = s.cached)
    (hl : t.lookup = s.lookup) (hb : t.backlog = s.backlog) (hr : t.record = s.record) :
    Keeps s t :=
  ⟨hc, hk, hl, hb, [], by simpa using hr, by simp⟩

theorem Keeps.refl (s : Session ρ) : Keeps s s := of_same rfl (.inr rfl) rfl rfl rfl

theorem Keeps.trans (h : Keeps s t) (h' : Keeps t u) : Keeps s u := by
  obtain ⟨es, hr, he⟩ := h.record
  obtain ⟨es', hr', he'⟩ := h'.record
  refine ⟨h'.config.trans h.config, ?_, h'.lookup.trans h.lookup, h'.backlog.trans h.backlog,
    es ++ es', by rw [hr', hr, List.append_assoc], ?_⟩
  · rcases h'.cached with hk | hk
    · exact .inl hk
    · rw [hk]
      exact h.cached
  · intro e hm
    rcases List.mem_append.mp hm with hm | hm
    · exact he e hm
    · exact he' e hm

theorem Keeps.note (s : Session ρ) {e : Entry} (he : e.isMinor = true) : Keeps s (s.note e) :=
  of_record rfl (.inr rfl) rfl rfl rfl (by simp [he])

theorem Keeps.failing (s : Session ρ) (message : String) (event : ServerEvent) :
    Keeps s (s.failing message event) :=
  of_record rfl (.inr rfl) rfl rfl rfl rfl

theorem Keeps.inviting (s : Session ρ) : Keeps s s.inviting :=
  of_record rfl (.inr rfl) rfl rfl rfl rfl

theorem Keeps.did (s : Session ρ) {what : Call} (hw : ∀ c, what ≠ .connect c) (remote : ρ)
    (outcome : Outcome) : Keeps s (s.did what remote outcome) := by
  refine of_record rfl (.inr rfl) rfl rfl rfl ?_
  cases what with
  | connect c => exact absurd rfl (hw c)
  | shell _ _ | exec _ _ _ | write _ | resize _ | closeStream | hangUp => rfl

theorem Keeps.attach (s : Session ρ) (kind : StreamKind) : Keeps s (s.attach kind) :=
  of_same rfl (.inr rfl) rfl rfl rfl

theorem Keeps.settled (s : Session ρ) (remote : ρ) (outcome : Outcome) :
    Keeps s (s.settled remote outcome) :=
  of_record rfl (.inr rfl) rfl rfl rfl rfl

theorem Keeps.welcomed (s : Session ρ) (c : Credentials) : Keeps s (s.welcomed c) :=
  of_record rfl (.inr rfl) rfl rfl rfl rfl

/-- A session went on and took no other message up. -/
structure Continues (s t : Session ρ) : Prop where
  backlog : t.backlog = s.backlog
  record : ∃ es, t.record = s.record ++ es ∧ ∀ m, .handled m ∉ es

theorem Keeps.continues (h : Keeps s t) : Continues s t := by
  obtain ⟨es, hr, he⟩ := h.record
  refine ⟨h.backlog, es, hr, fun m hm => ?_⟩
  have hminor := he _ hm
  simp [Entry.isMinor] at hminor

theorem Continues.trans (h : Continues s t) (h' : Continues t u) : Continues s u := by
  obtain ⟨es, hr, he⟩ := h.record
  obtain ⟨es', hr', he'⟩ := h'.record
  refine ⟨h'.backlog.trans h.backlog, es ++ es', by rw [hr', hr, List.append_assoc], ?_⟩
  intro m hm
  rcases List.mem_append.mp hm with hm | hm
  · exact he m hm
  · exact he' m hm

variable [Remote ρ]

theorem Keeps.ended (s : Session ρ) : Keeps s s.ended :=
  of_record rfl (.inr rfl) rfl rfl rfl rfl

theorem Keeps.broken (s : Session ρ) (f : Failure) : Keeps s (s.broken f) := by
  unfold Session.broken
  split
  · exact (of_same rfl (.inr rfl) rfl rfl rfl : Keeps s (s.keeping _)).trans
      ((inviting _).trans (ended _))
  · exact (failing s _ _).trans (ended _)

theorem Keeps.rebuffed (s : Session ρ) (c : Credentials) (f : Failure) :
    Keeps s (s.rebuffed c f) := by
  obtain ⟨_, _, _, hk, hi, hr⟩ := s.exists_rebuffed c f
  rw [hr]
  refine .trans ?_ (.ended _)
  rcases hi with rfl | rfl <;> exact of_record rfl hk rfl rfl rfl rfl

theorem Keeps.released (s : Session ρ) {es : List Entry} (he : es.all Entry.isMinor = true) :
    Keeps s (s.released es) :=
  of_record rfl (.inr rfl) rfl rfl rfl he

theorem Keeps.parted (s : Session ρ) : Keeps s s.parted := by
  unfold Session.parted
  split
  · exact of_record rfl (.inr rfl) rfl rfl rfl rfl
  · exact refl s

theorem Answers.keeps {m : Inbound} (h : Answers s m t) :
    Keeps s t ∨ ∃ r c, m = .ok (.auth r) ∧ s.resolve? r.credentials = some c ∧
      Approaches (s.parted.bound r c) c t := by
  cases h with
  | @authenticating r c _ hc ha => exact .inr ⟨r, c, rfl, hc, ha⟩
  | objected _ => exact .inl (.note s rfl)
  | ignored _ => exact .inl (.refl s)
  | unauthenticated _ =>
      exact .inl ((Keeps.parted s).trans ((Keeps.failing _ _ _).trans (.ended _)))
  | @shellOpened r _ _ _ =>
      have hf : Keeps s (s.fitted r) := .of_same rfl (.inr rfl) rfl rfl rfl
      exact .inl (hf.trans ((Keeps.did _ (by simp) _ _).trans (.attach _ _)))
  | @shellFailed r _ _ _ _ =>
      have hf : Keeps s (s.fitted r) := .of_same rfl (.inr rfl) rfl rfl rfl
      exact .inl (hf.trans ((Keeps.did _ (by simp) _ _).trans (.broken _ _)))
  | execOpened _ _ => exact .inl ((Keeps.did s (by simp) _ _).trans (.attach _ _))
  | execFailed _ _ | writeFailed _ _ =>
      exact .inl ((Keeps.did s (by simp) _ _).trans (.broken _ _))
  | resized _ => exact .inl (.of_record rfl (.inr rfl) rfl rfl rfl rfl)
  | @resizeFailed d remote f _ =>
      have hd : Keeps s ({ s with dimensions := d }.did (.resize d) remote (.error f)) :=
        .of_record rfl (.inr rfl) rfl rfl rfl rfl
      exact .inl (hd.trans (.broken _ _))
  | wrote _ _ | replayed _ _ _ _ => exact .inl (.did s (by simp) _ _)
  | replayFailed _ _ _ _ =>
      exact .inl ((Keeps.did s (by simp) _ _).trans ((Keeps.failing _ _ _).trans (.ended _)))
  | reauthed _ =>
      have hf : Keeps s ({ s with cached := none }.emit .reauth) :=
        .of_record rfl (.inl rfl) rfl rfl rfl rfl
      exact .inl (hf.trans (.ended _))
  | forgot => exact .inl (.of_same rfl (.inl rfl) rfl rfl rfl)
  | disconnected => exact .inl (.ended s)

theorem Receives.keeps {e : Option StreamEvent} (h : Receives s e t) : Keeps s t := by
  cases h with
  | output | extended => exact .note s rfl
  | exitStatus _ | exitSignal _ => exact .of_same rfl (.inr rfl) rfl rfl rfl
  | execClosed _ _ _ => exact .released s rfl
  | shellSignalled _ _ _ _ | failed => exact .broken s _
  | shellClosed _ _ _ _ => exact .ended s

theorem Vets.continues {c : Credentials} {found : Except String (List Net.Address)}
    (h : Vets s c found t) : Continues s t := by
  cases h with
  | allowed _ =>
      exact ⟨rfl, [.vetted c found, .called (.connect c) (.ok ())],
        by simp [Session.connect, vetted], by simp⟩
  | @refused refusal _ =>
      exact ⟨rfl, .vetted c found :: .sent (.sshError refusal.text) :: farewell,
        by simp [Session.ended, Session.failing, vetted], by simp [farewell]⟩

theorem Approaches.continues {c : Credentials} (h : Approaches s c t) : Continues s t := by
  cases h with
  | unrestricted _ =>
      exact ⟨rfl, [.called (.connect c) (.ok ())], by simp [Session.connect], by simp⟩
  | literal _ _ hv => exact hv.continues
  | named _ _ => exact ⟨rfl, [], by simp, by simp⟩

theorem Answers.continues {m : Inbound} (h : Answers s m t) : Continues s t := by
  rcases h.keeps with hk | ⟨r, c, -, -, ha⟩
  · exact hk.continues
  · have hb : Keeps s (s.parted.bound r c) :=
      (Keeps.parted s).trans (.of_same rfl (.inr rfl) rfl rfl rfl)
    exact hb.continues.trans ha.continues

/-- What a move comes to for one who asks about messages and targets only. -/
inductive Turns (s : Session ρ) : Stimulus → Session ρ → Prop
  | kept {σ : Stimulus} {t : Session ρ} (hl : s.lookup = none) (h : Keeps s t) : Turns s σ t
  | queued {m : Inbound} (hl : s.lookup = none) :
      Turns s (.message m) { s with backlog := s.backlog ++ [m] }
  | heard {m : Inbound} {t : Session ρ} (hl : s.lookup = none)
      (h : Answers (s.note (.handled m)) m t) : Turns s (.message m) t
  | resumed {m : Inbound} {rest : List Inbound} {t : Session ρ} (hl : s.lookup = none)
      (hb : s.backlog = m :: rest)
      (h : Answers ({ s with backlog := rest }.note (.handled m)) m t) : Turns s .resume t
  | resolved {c : Credentials} {found : Except String (List Net.Address)} {t : Session ρ}
      (hl : s.lookup = some c) (h : Vets s c found t) : Turns s (.resolved found) t

theorem Moves.turns {σ : Stimulus} (h : Moves s σ t) : Turns s σ t := by
  cases h with
  | answered hi ha => exact .heard (isListening_iff.mp hi).2.1 ha
  | resumed hl _ hb ha => exact .resumed hl hb ha
  | queued hl _ => exact .queued hl
  | abandoned hl _ => exact .kept hl (.of_same rfl (.inr rfl) rfl rfl rfl)
  | prompted hl _ => exact .kept hl (.note s rfl)
  | connected hl _ _ => exact .kept hl ((Keeps.settled s _ _).trans (.welcomed _ _))
  | rebuffed hl _ _ => exact .kept hl ((Keeps.settled s _ _).trans (.rebuffed _ _ _))
  | givenUp hl _ _ => exact .kept hl ((Keeps.settled s _ _).trans (.ended _))
  | resolved hl hv => exact .resolved hl hv
  | departed hi => exact .kept (isListening_iff.mp hi).2.1 (.ended s)
  | received hi _ hr =>
      exact .kept (isListening_iff.mp hi).2.1 ((Keeps.note s rfl).trans hr.keeps)
  | counted hi => exact .kept (isListening_iff.mp hi).2.1 (.note s rfl)
  | expired hi _ => exact .kept (isListening_iff.mp hi).2.1 (.released s rfl)

end Session

end TerminalGateway

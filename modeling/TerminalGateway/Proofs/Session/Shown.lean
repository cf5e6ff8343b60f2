import TerminalGateway.Proofs.Session.Operations

/-!
What a client is shown of a countdown. A session that listens passes on each value that it takes,
and nothing else that happens to it has anything to do with the seconds left.
-/

namespace TerminalGateway

/-- The seconds left that a client is shown. -/
def Entry.remaining? : Entry → Option Nat
  | .sent (.countdown remaining) => some remaining
  | _ => none

/-- Nothing about the seconds left. -/
def Entry.isTimeless (e : Entry) : Bool := e.remaining?.isNone

/-- No label, and no connection that was made. -/
def Entry.isUnlabelled : Entry → Bool
  | .sent (.update _ _) | .retargeted _ | .settled (.ok ()) => false
  | _ => true

/-- Nothing about the seconds left or about a connection that was made. -/
def Entry.isPlain (e : Entry) : Bool := e.isTimeless && e.isUnlabelled

theorem Entry.isPlain_of_isParting {e : Entry} (h : e.isParting = true) : e.isPlain = true := by
  unfold isParting at h
  split at h <;> simp_all [isPlain, isTimeless, remaining?, isUnlabelled]

def Record.countdown (record : List Entry) : List Nat := record.filterMap Entry.remaining?

theorem Record.countdown_append (record es : List Entry) :
    countdown (record ++ es) = countdown record ++ countdown es :=
  List.filterMap_append ..

/-- The value that a subscriber got, if it is one. -/
def Drain.Reception.value? {α : Type} : Drain.Reception α → Option α
  | .value x => some x
  | .lagged _ => none

namespace Session

variable {ρ : Type} {s t u : Session ρ}

theorem Adds.countdown (h : Adds Entry.isTimeless s t) :
    Record.countdown t.record = Record.countdown s.record := by
  obtain ⟨es, hr, he⟩ := h
  have hes : Record.countdown es = [] := List.filterMap_eq_nil_iff.mpr fun e hm =>
    Option.isNone_iff_eq_none.mp (he e hm)
  rw [hr, Record.countdown_append, hes, List.append_nil]

theorem Adds.plain (h : Adds Entry.isParting s t) : Adds Entry.isPlain s t :=
  h.mono fun _ => Entry.isPlain_of_isParting

variable [Remote ρ]

theorem Vets.plain {c : Credentials} {found : Except String (List Net.Address)}
    (h : Vets s c found t) : Adds Entry.isPlain s t := by
  have hv : Adds Entry.isPlain s (s.vetted c found) := .of_record rfl rfl
  cases h with
  | allowed _ => exact hv.trans (.of_record rfl rfl)
  | refused _ => exact hv.trans (Adds.failing_ended _ _).plain

theorem Approaches.plain {c : Credentials} (h : Approaches s c t) :
    Adds Entry.isPlain s t := by
  cases h with
  | unrestricted _ => exact .of_record rfl rfl
  | literal _ _ hv => exact hv.plain
  | named _ _ => exact .same rfl

theorem Answers.plain {m : Inbound} (h : Answers s m t) : Adds Entry.isPlain s t := by
  cases h with
  | objected _ | shellOpened _ _ | execOpened _ _ | resized _ | wrote _ _ | replayed _ _ _ _ =>
      exact .of_record rfl rfl
  | ignored _ | forgot => exact .same rfl
  | unauthenticated _ => exact ((Adds.parted s).trans (.failing_ended _ _)).plain
  | @authenticating r c _ _ ha =>
      have hb : Adds Entry.isPlain s (s.parted.bound r c) :=
        (Adds.parted s).plain.trans (.same rfl)
      exact hb.trans ha.plain
  | shellFailed _ _ | execFailed _ _ | resizeFailed _ | writeFailed _ _ =>
      exact Adds.trans (.of_record rfl rfl) (Adds.broken _ _).plain
  | replayFailed _ _ _ _ =>
      exact Adds.trans (.of_record rfl rfl) (Adds.failing_ended _ _).plain
  | reauthed _ => exact Adds.trans (.of_record rfl rfl) (Adds.ended _).plain
  | disconnected => exact (Adds.ended s).plain

theorem Receives.plain {e : Option StreamEvent} (h : Receives s e t) :
    Adds Entry.isPlain s t := by
  cases h with
  | output | extended | execClosed _ _ _ => exact .of_record rfl rfl
  | exitStatus _ | exitSignal _ => exact .same rfl
  | shellSignalled _ _ _ _ | failed => exact (Adds.broken _ _).plain
  | shellClosed _ _ _ _ => exact (Adds.ended _).plain

/-- A move tells the seconds left, or it learns what came of a connection, or it does nothing of
either. -/
theorem Moves.plain {σ : Stimulus} (h : Moves s σ t) :
    Adds Entry.isPlain s t ∨ (∃ x, σ = .countdown (.value x) ∧ t = s.emit (.countdown x)) ∨
      (∃ c remote, s.attempt = some ⟨c, false⟩ ∧ t = (s.settled remote (.ok ())).welcomed c) ∨
      ∃ remote outcome, t = (s.settled remote outcome).ended := by
  cases h with
  | answered _ ha => exact .inl (Adds.trans (.of_record rfl rfl) ha.plain)
  | @resumed m rest _ _ _ _ ha =>
      have hu : Adds Entry.isPlain s ({ s with backlog := rest }.note (.handled m)) :=
        .of_record rfl rfl
      exact .inl (hu.trans ha.plain)
  | queued _ _ | abandoned _ _ => exact .inl (.same rfl)
  | prompted _ _ | expired _ _ => exact .inl (.of_record rfl rfl)
  | @connected c remote _ ha _ => exact .inr (.inr (.inl ⟨c, remote, ha, rfl⟩))
  | @rebuffed c remote f _ _ _ =>
      have hs : Adds Entry.isPlain s (s.settled remote (.error f)) := .of_record rfl rfl
      exact .inl (hs.trans
        (.rebuffed (fun _ => Entry.isPlain_of_isParting) (fun _ => rfl) _ _ _))
  | @givenUp c remote outcome _ _ _ => exact .inr (.inr (.inr ⟨remote, outcome, rfl⟩))
  | resolved _ hv => exact .inl hv.plain
  | departed _ => exact .inl (Adds.ended s).plain
  | received _ _ hr => exact .inl (Adds.trans (.of_record rfl rfl) hr.plain)
  | @counted x _ => exact .inr (.inl ⟨x, rfl, rfl⟩)

theorem Moves.timeless {σ : Stimulus} (h : Moves s σ t) (hσ : ∀ r, σ ≠ .countdown r) :
    Adds Entry.isTimeless s t := by
  have htimeless : ∀ e : Entry, e.isPlain = true → e.isTimeless = true := fun e he =>
    (Bool.and_eq_true _ _ ▸ he).1
  have hsettled : ∀ remote outcome, Adds Entry.isTimeless s (s.settled remote outcome) :=
    fun _ _ => .of_record rfl rfl
  rcases h.plain with hp | ⟨x, rfl, -⟩ | ⟨c, remote, -, rfl⟩ | ⟨remote, outcome, rfl⟩
  · exact hp.mono htimeless
  · exact absurd rfl (hσ _)
  · exact (hsettled _ _).trans (.of_record rfl rfl)
  · exact (hsettled _ _).trans ((Adds.ended _).plain.mono htimeless)

theorem Coherent.countdown_step (h : s.Coherent) {σ : Stimulus} (hσ : ∀ r, σ ≠ .countdown r) :
    Record.countdown (s.step σ).record = Record.countdown s.record := by
  rcases h.step_cases σ with ⟨-, hs⟩ | hs | ⟨-, hm⟩
  · rw [hs]
  · rw [hs]
  · exact (hm.timeless hσ).countdown

/-- A session that listens passes a value on, and goes on as it was. -/
theorem step_countdown (h : s.isListening = true) (r : Drain.Reception Nat) :
    s.step (.countdown r) =
      { s with record := s.record ++ r.value?.toList.map fun x => .sent (.countdown x) } := by
  obtain ⟨hc, hl, ha, hb⟩ := isListening_iff.mp h
  rw [step_of_listening hc hl ha hb (by simp)]
  cases r with
  | value x => rfl
  | lagged n => simp [stepListening, Drain.Reception.value?]

theorem countdown_told (h : s.isListening = true) (r : Drain.Reception Nat) :
    Record.countdown (s.step (.countdown r)).record =
      Record.countdown s.record ++ r.value?.toList := by
  rw [step_countdown h, Record.countdown_append]
  cases r <;> rfl

end Session

end TerminalGateway

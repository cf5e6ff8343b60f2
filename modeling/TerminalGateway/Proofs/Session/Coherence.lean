import TerminalGateway.Proofs.Session.Moves
import TerminalGateway.Proofs.Session.Record

/-!
How the parts of a session belong together at every moment of a run: its phase with its stream,
its credentials with the connection that the record tells of, its place and its failure with its
end.
-/

namespace TerminalGateway.Session

variable {ρ : Type}

structure Coherent (s : Session ρ) : Prop where
  notClosing : s.phase ≠ .closing
  waiting : s.phase = .authenticating ↔ s.lookup.isSome = true ∨ s.attempt.isSome = true
  stream : s.stream.isSome = true ↔ s.phase = .streaming
  receiver : s.receiver.isSome = true ↔ s.phase = .streaming
  registered : s.registered = false ↔ s.phase = .closed
  left : .left ∈ s.record ↔ s.phase = .closed
  faultless : s.phase ≠ .closed → s.firstError = none
  resolving : ∀ c, s.lookup = some c → s.attempt = none ∧ s.credentials = some c
  connecting : ∀ a, s.attempt = some a →
    s.credentials = some a.credentials ∧
      Record.lastConnection? s.record = some (a.credentials, none)
  connected : s.phase = .connected ∨ s.phase = .streaming →
    ∃ c, s.credentials = some c ∧ Record.lastConnection? s.record = some (c, some (.ok ()))

/-- What coherence reads of a session. -/
def parts (s : Session ρ) :=
  (s.phase, s.lookup, s.attempt, s.stream.isSome, s.receiver, s.registered, s.firstError,
    s.credentials, s.record)

/-- A session that is about to connect. -/
structure Underway (s : Session ρ) (c : Credentials) : Prop where
  phase : s.phase = .authenticating
  credentials : s.credentials = some c
  attempt : s.attempt = none
  stream : s.stream = none
  receiver : s.receiver = none
  isOpen : s.Open
  left : .left ∉ s.record

namespace Coherent

variable {s t : Session ρ}

theorem isOpen (h : s.Coherent) (hc : s.isClosing = false) : s.Open := by
  have hp : s.phase ≠ .closed := by
    intro hp
    simp [isClosing, hp] at hc
  refine ⟨hc, h.faultless hp, ?_⟩
  simpa using mt h.registered.mp hp

theorem congr (h : s.Coherent) (hp : t.phase = s.phase) (hl : t.lookup = s.lookup)
    (ha : t.attempt = s.attempt) (hs : t.stream.isSome = s.stream.isSome)
    (hr : t.receiver = s.receiver) (hg : t.registered = s.registered)
    (hf : t.firstError = s.firstError) (hc : t.credentials = s.credentials)
    (hm : .left ∈ t.record ↔ .left ∈ s.record)
    (hk : Record.lastConnection? t.record = Record.lastConnection? s.record) : t.Coherent := by
  obtain ⟨h1, h2, h3, h4, h5, h6, h7, h8, h9, h10⟩ := h
  constructor <;> simp only [hp, hl, ha, hs, hr, hg, hf, hc, hm, hk] <;> assumption

theorem of_parts (h : s.Coherent) (hp : t.parts = s.parts) : t.Coherent := by
  simp only [parts, Prod.mk.injEq] at hp
  obtain ⟨hp, hl, ha, hs, hr, hg, hf, hc, hrec⟩ := hp
  exact h.congr hp hl ha hs hr hg hf hc (by rw [hrec]) (by rw [hrec])

theorem note (h : s.Coherent) {e : Entry} (he : e ≠ .left) (hq : Record.Quiet e) :
    (s.note e).Coherent :=
  h.congr rfl rfl rfl rfl rfl rfl rfl rfl (by simp [Ne.symm he]) (by simp [hq _])

theorem emit (h : s.Coherent) (e : ServerEvent) : (s.emit e).Coherent :=
  h.note (by simp) (fun _ => rfl)

variable [Remote ρ]

theorem ended (hl : t.lookup = none) (ha : t.attempt = none) : t.ended.Coherent := by
  constructor <;> simp [Session.ended, farewell, hl, ha]

theorem broken (hl : t.lookup = none) (ha : t.attempt = none) (f : Failure) :
    (t.broken f).Coherent := by
  unfold Session.broken
  split
  · exact ended (t := (t.keeping _).inviting) hl ha
  · exact ended (t := t.failing _ _) hl ha

theorem rebuffed (hl : t.lookup = none) (ha : t.attempt = none) (c : Credentials) (f : Failure) :
    (t.rebuffed c f).Coherent := by
  unfold Session.rebuffed
  apply ended <;> repeat' split
  all_goals first | exact hl | exact ha

omit [Remote ρ] in
theorem did (h : s.Coherent) {what : Call} (hw : ∀ c, what ≠ .connect c) (remote : ρ)
    (outcome : Outcome) : (s.did what remote outcome).Coherent := by
  have hq : Record.Quiet (.called what outcome) := by
    intro last
    cases what with
    | connect c => exact absurd rfl (hw c)
    | shell _ _ | exec _ _ _ | write _ | resize _ | closeStream | hangUp => rfl
  exact (h.note (by simp) hq).of_parts rfl

omit [Remote ρ] in
theorem notWaiting (h : s.Coherent) (hp : s.phase ≠ .authenticating) :
    s.lookup = none ∧ s.attempt = none := by
  simpa [not_or] using mt h.waiting.mpr hp

omit [Remote ρ] in
theorem attach (h : s.Coherent) (hp : s.phase = .connected) (kind : StreamKind) :
    (s.attach kind).Coherent := by
  obtain ⟨hl, ha⟩ := h.notWaiting (by simp [hp])
  exact {
    notClosing := by simp [Session.attach]
    waiting := by simp [Session.attach, hl, ha]
    stream := by simp [Session.attach]
    receiver := by simp [Session.attach]
    registered := by simpa [Session.attach, hp] using h.registered
    left := by simpa [Session.attach, hp] using h.left
    faultless := fun _ => h.faultless (by simp [hp])
    resolving := by simp [Session.attach, hl]
    connecting := by simp [Session.attach, ha]
    connected := fun _ => h.connected (.inl hp) }

theorem released (h : s.Coherent) (hp : s.phase = .streaming) {es : List Entry}
    (he : .left ∉ es) (hq : ∀ e ∈ es, Record.Quiet e) : (s.released es).Coherent := by
  obtain ⟨hl, ha⟩ := h.notWaiting (by simp [hp])
  exact {
    notClosing := by simp [Session.released]
    waiting := by simp [Session.released, hl, ha]
    stream := by simp [Session.released]
    receiver := by simp [Session.released]
    registered := by simpa [Session.released, hp] using h.registered
    left := by simpa [Session.released, hp, he] using h.left
    faultless := fun _ => h.faultless (by simp [hp])
    resolving := by simp [Session.released, hl]
    connecting := by simp [Session.released, ha]
    connected := fun _ => by
      simpa [Session.released, Record.foldl_connectionAfter hq] using h.connected (.inr hp) }

omit [Remote ρ] in
theorem underway_of_lookup (h : s.Coherent) (ho : s.Open) {c : Credentials}
    (hl : s.lookup = some c) : s.Underway c := by
  have hp : s.phase = .authenticating := h.waiting.mpr (.inl (by simp [hl]))
  obtain ⟨ha, hc⟩ := h.resolving c hl
  refine ⟨hp, hc, ha, ?_, ?_, ho, by simp [h.left, hp]⟩
  · simpa [hp] using h.stream
  · simpa [hp] using h.receiver

theorem underway_bound (h : s.Coherent) (ho : s.Open) (ha : s.attempt = none)
    (r : AuthRequest) (c : Credentials) : (s.parted.bound r c).Underway c := by
  have hleft : .left ∉ s.record := by
    intro hm
    simpa [isClosing, h.left.mp hm] using ho.goesOn
  have hopen : (s.parted.bound r c).Open := ⟨rfl, ho.parted.faultless, ho.parted.registered⟩
  by_cases hp : s.phase = .connected ∨ s.phase = .streaming
  · have hpart : s.parted.attempt = none ∧ s.parted.stream = none ∧ s.parted.receiver = none ∧
        .left ∉ s.parted.record := by
      simp [Session.parted, hp, ha, hleft]
    exact ⟨rfl, rfl, hpart.1, hpart.2.1, hpart.2.2.1, hopen, hpart.2.2.2⟩
  · have hpart : s.parted = s := by simp [Session.parted, hp]
    have hs : s.stream = none := by simpa [not_or.mp hp] using h.stream
    have hr : s.receiver = none := by simpa [not_or.mp hp] using h.receiver
    rw [hpart] at hopen ⊢
    exact ⟨rfl, rfl, ha, hs, hr, hopen, hleft⟩

theorem connect {c : Credentials} (h : t.Underway c) (hl : t.lookup = none) :
    (t.connect c).Coherent :=
  { notClosing := by simp [Session.connect, Session.note, h.phase]
    waiting := by simp [Session.connect, Session.note, h.phase]
    stream := by simp [Session.connect, Session.note, h.phase, h.stream]
    receiver := by simp [Session.connect, Session.note, h.phase, h.receiver]
    registered := by simp [Session.connect, Session.note, h.phase, h.isOpen.registered]
    left := by simp [Session.connect, h.phase, h.left, Session.note]
    faultless := fun _ => h.isOpen.faultless
    resolving := by simp [Session.connect, Session.note, hl]
    connecting := by
      simp [Session.connect, Session.note, h.credentials, Record.connectionAfter]
    connected := by simp [Session.connect, Session.note, h.phase] }

theorem vets {c : Credentials} {found : Except String (List Net.Address)} {s' : Session ρ}
    (h : t.Underway c) (hv : Vets t c found s') : s'.Coherent := by
  have hu : (t.vetted c found).Underway c :=
    ⟨h.phase, h.credentials, h.attempt, h.stream, h.receiver,
      ⟨h.isOpen.goesOn, h.isOpen.faultless, h.isOpen.registered⟩,
      by simp [Session.vetted, h.left]⟩
  cases hv with
  | allowed _ => exact connect hu rfl
  | refused _ => exact ended (t := (t.vetted c found).failing _ _) rfl h.attempt

theorem approaches {c : Credentials} {s' : Session ρ} (h : t.Underway c) (hl : t.lookup = none)
    (ha : Approaches t c s') : s'.Coherent := by
  cases ha with
  | unrestricted _ => exact connect h hl
  | literal _ _ hv => exact vets h hv
  | named _ _ =>
      exact {
        notClosing := by simp [h.phase]
        waiting := by simp [h.phase]
        stream := by simp [h.phase, h.stream]
        receiver := by simp [h.phase, h.receiver]
        registered := by simp [h.phase, h.isOpen.registered]
        left := by simp [h.phase, h.left]
        faultless := fun _ => h.isOpen.faultless
        resolving := by simp [h.attempt, h.credentials]
        connecting := by simp [h.attempt]
        connected := by simp [h.phase] }

theorem answers (h : s.Coherent) (ho : s.Open) (hl : s.lookup = none) (ha : s.attempt = none)
    {m : Inbound} {s' : Session ρ} (hm : Answers s m s') : s'.Coherent := by
  have hpl : s.parted.lookup = none := by unfold Session.parted; split <;> exact hl
  have hpa : s.parted.attempt = none := by unfold Session.parted; split <;> exact ha
  have hfit : ∀ r, (s.fitted r).Coherent := fun r =>
    h.of_parts rfl
  cases hm with
  | objected _ => exact h.emit _
  | ignored _ => exact h
  | unauthenticated _ => exact ended (t := s.parted.failing _ _) hpl hpa
  | authenticating _ hap => exact approaches (h.underway_bound ho ha _ _) hpl hap
  | shellOpened hp _ => exact ((hfit _).did (by simp) _ _).attach hp _
  | execOpened hp _ => exact (h.did (by simp) _ _).attach hp _
  | shellFailed _ _ | execFailed _ _ | resizeFailed _ | writeFailed _ _ =>
      exact broken (by exact hl) (by exact ha) _
  | @resized d _ _ =>
      have hd : ({ s with dimensions := d } : Session ρ).Coherent :=
        h.of_parts rfl
      exact hd.did (by simp) _ _
  | wrote _ _ | replayed _ _ _ _ => exact h.did (by simp) _ _
  | replayFailed _ _ _ _ => exact ended (t := (s.did _ _ _).failing _ _) hl ha
  | reauthed _ => exact ended (t := { s with cached := none }.emit _) hl ha
  | forgot => exact h.of_parts rfl
  | disconnected => exact ended hl ha

theorem receives (h : s.Coherent) (hl : s.lookup = none) (ha : s.attempt = none)
    {e : Option StreamEvent} {s' : Session ρ} (hr : Receives s e s') : s'.Coherent := by
  have hp : ∀ {st : OpenStream}, s.stream = some st → s.phase = .streaming := fun hs =>
    h.stream.mp (by simp [hs])
  cases hr with
  | output | extended => exact h.emit _
  | exitStatus hs | exitSignal hs =>
      exact h.of_parts (by simp [parts, hs])
  | execClosed _ hs _ =>
      exact h.released (hp hs) (by simp) (by simp [Record.Quiet, Record.connectionAfter])
  | shellSignalled _ _ _ _ | failed => exact broken hl ha _
  | shellClosed _ _ _ _ => exact ended hl ha

omit [Remote ρ] in
theorem welcomed (h : s.Coherent) {c : Credentials} {gone : Bool} {remote : ρ}
    (hl : s.lookup = none) (ha : s.attempt = some ⟨c, gone⟩) :
    ((s.settled remote (.ok ())).welcomed c).Coherent := by
  have hp : s.phase = .authenticating := h.waiting.mpr (.inr (by simp [ha]))
  obtain ⟨hc, hk⟩ := h.connecting _ ha
  have hm : .left ∉ s.record := by simp [h.left, hp]
  exact {
    notClosing := by simp [Session.welcomed]
    waiting := by simp [Session.welcomed, Session.settled, hl]
    stream := by simpa [Session.welcomed, Session.settled, hp] using h.stream
    receiver := by simpa [Session.welcomed, Session.settled, hp] using h.receiver
    registered := by simpa [Session.welcomed, Session.settled, hp] using h.registered
    left := by simp [Session.welcomed, Session.settled, welcome, hm]
    faultless := fun _ => h.faultless (by simp [hp])
    resolving := by simp [Session.welcomed, Session.settled, hl]
    connecting := by simp [Session.welcomed, Session.settled]
    connected := by
      simp [Session.welcomed, Session.settled, welcome, Record.connectionAfter, hc, hk] }

theorem moves (h : s.Coherent) (ho : s.Open) {σ : Stimulus} {s' : Session ρ}
    (hm : Moves s σ s') : s'.Coherent := by
  cases hm with
  | answered hi hm =>
      obtain ⟨-, hl, ha, -⟩ := isListening_iff.mp hi
      exact answers (h.note (by simp) (fun _ => rfl)) (ho.note _) hl ha hm
  | @resumed m rest _ hl ha _ hm =>
      have hb : ({ s with backlog := rest } : Session ρ).Coherent :=
        h.of_parts rfl
      exact answers (hb.note (by simp) (fun _ => rfl)) ⟨ho.goesOn, ho.faultless, ho.registered⟩ hl
        ha hm
  | queued _ _ => exact h.of_parts rfl
  | @abandoned c hl ha =>
      have hp : s.phase = .authenticating := h.waiting.mpr (.inr (by simp [ha]))
      exact { h with
        waiting := by simp [hp]
        resolving := by simp [hl]
        connecting := by simpa using h.connecting _ ha }
  | prompted _ _ | counted _ => exact h.emit _
  | connected hl ha _ => exact h.welcomed hl ha
  | rebuffed hl _ _ => exact rebuffed (by exact hl) rfl _ _
  | givenUp hl _ _ => exact ended (by exact hl) rfl
  | resolved hl hv => exact vets (h.underway_of_lookup ho hl) hv
  | departed hi =>
      obtain ⟨-, hl, ha, -⟩ := isListening_iff.mp hi
      exact ended hl ha
  | received hi _ hr =>
      obtain ⟨-, hl, ha, -⟩ := isListening_iff.mp hi
      exact receives (h.note (by simp) (fun _ => rfl)) hl ha hr
  | expired hi hd =>
      have hs : s.stream.isSome = true := by
        cases hs : s.stream with
        | none => simp [isDue, hs] at hd
        | some _ => rfl
      exact h.released (h.stream.mp hs) (by simp) (by simp [Record.Quiet, Record.connectionAfter])

theorem step_cases (h : s.Coherent) (σ : Stimulus) :
    σ = .elapse ∧ s.step σ = { s with clock := s.clock + 1 } ∨ s.step σ = s ∨
      s.Open ∧ Moves s σ (s.step σ) := by
  by_cases hσ : σ = .elapse
  · exact .inl ⟨hσ, hσ ▸ step_elapse s⟩
  cases hc : s.isClosing with
  | true => exact .inr (.inl (step_of_isClosing hc hσ))
  | false =>
      have hr : s.receiver.isSome = true → s.stream.isSome = true := fun hr =>
        h.stream.mpr (h.receiver.mp hr)
      rcases (h.isOpen hc).steps hr hσ with ⟨-, hs⟩ | hm
      · exact .inr (.inl hs)
      · exact .inr (.inr ⟨h.isOpen hc, hm⟩)

theorem heeded_cases (h : s.Coherent) {σ : Stimulus} (hσ : σ ≠ .elapse) :
    s.heeds σ = false ∧ s.step σ = s ∨ s.Open ∧ Moves s σ (s.step σ) := by
  cases hc : s.isClosing with
  | true => exact .inl ⟨heeds_of_isClosing hc hσ, step_of_isClosing hc hσ⟩
  | false =>
      have hr : s.receiver.isSome = true → s.stream.isSome = true := fun hr =>
        h.stream.mpr (h.receiver.mp hr)
      exact ((h.isOpen hc).steps hr hσ).imp_right fun hm => ⟨h.isOpen hc, hm⟩

theorem moves_of_heeds (h : s.Coherent) {σ : Stimulus} (hh : s.heeds σ = true)
    (hσ : σ ≠ .elapse) : s.Open ∧ Moves s σ (s.step σ) := by
  have hr : s.receiver.isSome = true → s.stream.isSome = true := fun hr =>
    h.stream.mpr (h.receiver.mp hr)
  cases hc : s.isClosing with
  | true => simp [heeds_of_isClosing hc hσ] at hh
  | false =>
      refine ⟨h.isOpen hc, ((h.isOpen hc).steps hr hσ).resolve_left fun hn => ?_⟩
      simp [hh] at hn

theorem step (h : s.Coherent) (σ : Stimulus) : (s.step σ).Coherent := by
  rcases h.step_cases σ with ⟨-, hs⟩ | hs | ⟨ho, hm⟩
  · rw [hs]
    exact h.of_parts rfl
  · rw [hs]
    exact h
  · exact h.moves ho hm

end Coherent

section
variable [Remote ρ]

theorem run_append (s : Session ρ) (σs τs : List Stimulus) :
    s.run (σs ++ τs) = (s.run σs).run τs :=
  List.foldl_append

theorem run_induction {P : Session ρ → Prop} {s : Session ρ} {σs : List Stimulus} (h : P s)
    (step : ∀ t σ, σ ∈ σs → P t → P (t.step σ)) : P (s.run σs) := by
  induction σs generalizing s with
  | nil => exact h
  | cons σ σs ih =>
      exact ih (step s σ List.mem_cons_self h) fun t τ hτ =>
        step t τ (List.mem_cons_of_mem σ hτ)

theorem Coherent.run {s : Session ρ} (h : s.Coherent) (σs : List Stimulus) :
    (s.run σs).Coherent :=
  run_induction h fun _ σ _ h => h.step σ

/-- What every move of a coherent session keeps holds throughout its run. -/
theorem Coherent.run_induction {P : Session ρ → Prop} {s : Session ρ} {σs : List Stimulus}
    (hs : s.Coherent) (h : P s) (tick : ∀ t, P t → P { t with clock := t.clock + 1 })
    (move : ∀ t σ t', σ ∈ σs → t.Coherent → t.Open → P t → Moves t σ t' → P t') :
    P (s.run σs) := by
  -- coherence rides along: only a coherent session is known to move as `Moves` says
  have step : ∀ t σ, σ ∈ σs → t.Coherent ∧ P t → (t.step σ).Coherent ∧ P (t.step σ) := by
    rintro t σ hσ ⟨ht, hP⟩
    refine ⟨ht.step σ, ?_⟩
    rcases ht.step_cases σ with ⟨rfl, hs⟩ | hs | ⟨ho, hm⟩
    · rw [hs]
      exact tick t hP
    · rw [hs]
      exact hP
    · exact move t σ _ hσ ht ho hP hm
  exact (Session.run_induction ⟨hs, h⟩ step).2

end

theorem coherent_start (config : Config) (remote : ρ) (cached : Option Credentials)
    (env : Environment.Pairs) : (start config remote cached env).Coherent := by
  constructor <;> simp [start]

/-- A session that neither looks a host up nor connects is at the head of its loop; only there can
it be idle, connected, streaming or closed. -/
theorem parts_agree_run [Remote ρ] (config : Config) (remote : ρ) (cached : Option Credentials)
    (env : Environment.Pairs) (σs : List Stimulus) :
    let s := (start config remote cached env).run σs
    (s.lookup = none ∧ s.attempt = none ↔
      s.phase = .idle ∨ s.phase = .connected ∨ s.phase = .streaming ∨ s.phase = .closed) ∧
    (s.stream.isSome = true ↔ s.phase = .streaming) ∧
    (s.receiver.isSome = true ↔ s.phase = .streaming) ∧
    (s.phase = .connected ∨ s.phase = .streaming →
      ∃ c, s.credentials = some c ∧ Record.lastConnection? s.record = some (c, some (.ok ()))) ∧
    (s.registered = false ↔ s.phase = .closed) ∧
    (.left ∈ s.record ↔ s.phase = .closed) ∧
    (s.firstError.isSome = true → s.phase = .closed) := by
  intro s
  have h : s.Coherent := (coherent_start config remote cached env).run σs
  refine ⟨?_, h.stream, h.receiver, h.connected, h.registered, h.left, ?_⟩
  · have hw : s.lookup = none ∧ s.attempt = none ↔ s.phase ≠ .authenticating := by
      rw [ne_eq, h.waiting]
      simp
    have hc := h.notClosing
    rw [hw]
    cases hp : s.phase <;> simp_all
  · intro hf
    by_cases hp : s.phase = .closed
    · exact hp
    · simp [h.faultless hp] at hf

end TerminalGateway.Session

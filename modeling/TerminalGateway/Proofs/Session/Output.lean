import TerminalGateway.Http.Frame
import TerminalGateway.Proofs.Session.Flow
import TerminalGateway.Proofs.Session.Sources

/-!
The output of streams on its way to the client. All of it that a session takes goes on at once, as
it is; it is a first part of what each stream delivers, and nothing comes from a stream any more
that the session does not listen to.
-/

namespace TerminalGateway

/-- The octets of a frame that has no text. -/
def Http.Frame.octets? : Http.Frame → Option Octets
  | .binary bytes => some bytes
  | _ => none

namespace Record

/-- The output that went to the client. -/
def output (record : List Entry) : List Octets :=
  record.filterMap fun e => match e with
    | .sent (.data bytes) => some bytes
    | _ => none

/-- The output that was taken off streams. -/
def payloads (record : List Entry) : List Octets :=
  record.filterMap fun e => match e with
    | .received _ (some event) => event.payload?
    | _ => none

/-- All that was taken off a stream. -/
def delivered (i : Nat) (record : List Entry) : List StreamEvent :=
  record.filterMap fun e => match e with
    | .received n (some event) => if n = i then some event else none
    | _ => none

/-- How many streams were opened. -/
def openings (record : List Entry) : Nat := record.countP Entry.opensStream

variable {record es : List Entry} {i : Nat}

@[simp] theorem output_append : output (record ++ es) = output record ++ output es := by
  simp [output]

@[simp] theorem payloads_append : payloads (record ++ es) = payloads record ++ payloads es := by
  simp [payloads]

@[simp] theorem delivered_append :
    delivered i (record ++ es) = delivered i record ++ delivered i es := by
  simp [delivered]

@[simp] theorem openings_append : openings (record ++ es) = openings record + openings es := by
  simp [openings]

theorem delivered_eq_nil (h : ∀ i x, .received i x ∉ es) (i : Nat) : delivered i es = [] := by
  refine List.filterMap_eq_nil_iff.mpr fun e he => ?_
  split
  · exact absurd he (h _ _)
  · rfl

theorem delivered_taken {n : Nat} {e : Option StreamEvent} (h : ∀ i x, .received i x ∉ es) :
    delivered i (.received n e :: es) = if n = i then e.toList else [] := by
  change delivered i ([.received n e] ++ es) = _
  rw [delivered_append, delivered_eq_nil h, List.append_nil]
  cases e with
  | none => simp [delivered]
  | some event =>
      by_cases hi : n = i
      · simp [delivered, hi]
      · simp [delivered, hi]

/-- Entries that tell of no stream. -/
structure Still (es : List Entry) : Prop where
  output : output es = []
  payloads : payloads es = []
  openings : openings es = 0
  received : ∀ i e, .received i e ∉ es

theorem still_of_forall (h : ∀ e ∈ es, e.isStill = true) : Still es := by
  have hsent : ∀ bytes, .sent (.data bytes) ∉ es := fun _ hm => by
    simpa [Entry.isStill] using h _ hm
  have hreceived : ∀ i x, .received i x ∉ es := fun _ _ hm => by
    simpa [Entry.isStill] using h _ hm
  refine ⟨?_, ?_, ?_, hreceived⟩
  · refine List.filterMap_eq_nil_iff.mpr fun e he => ?_
    split
    · exact absurd he (hsent _)
    · rfl
  · refine List.filterMap_eq_nil_iff.mpr fun e he => ?_
    split
    · exact absurd he (hreceived _ _)
    · rfl
  · refine List.countP_eq_zero.mpr fun e he hx => ?_
    have hs := h e he
    unfold Entry.opensStream at hx
    split at hx <;> simp_all [Entry.isStill]

theorem Still.each {P : List Entry → Nat → Prop} (h : Still es) :
    Each (fun past e => ∀ i x, e = .received i x → P past i) es := by
  rintro past e rest rfl i x rfl
  exact absurd (by simp) (h.received i x)

/-- Only output travels in frames without text, and it does so octet by octet. -/
theorem octets_of_events (record : List Entry) :
    ((events record).map Http.Frame.ofEvent).filterMap Http.Frame.octets? = output record := by
  rw [events, output, List.map_filterMap, List.filterMap_filterMap]
  congr 1
  funext e
  cases e with
  | sent event => cases event <;> rfl
  | _ => rfl

end Record

namespace Session

open Record

variable {ρ : Type} {s t u : Session ρ}

/-- What a session has sent on, and which streams it knows. -/
structure Piped (s : Session ρ) : Prop where
  output : output s.record = payloads s.record
  openings : openings s.record = s.opened
  receiver : ∀ i, s.receiver = some i → i + 1 = s.opened
  /-- Whatever was taken came off the stream that was opened last. -/
  latest : Each (fun past e => ∀ i x, e = .received i x → Record.openings past = i + 1) s.record

theorem piped_start (config : Config) (remote : ρ) (cached : Option Credentials)
    (env : Environment.Pairs) : (start config remote cached env).Piped :=
  ⟨rfl, rfl, by simp [start], by simp [start]⟩

namespace Piped

/-- A session that did more, and whose record may tell more. -/
theorem grow (h : s.Piped) {es : List Entry} (hr : t.record = s.record ++ es)
    (ho : t.opened = s.opened + Record.openings es)
    (hn : ∀ i, t.receiver = some i → i + 1 = t.opened) (hout : Record.output es = payloads es)
    (hes : Each (fun past e => ∀ i x, e = .received i x → s.opened + Record.openings past = i + 1)
      es) : t.Piped := by
  refine ⟨by rw [hr, output_append, payloads_append, h.output, hout],
    by rw [hr, openings_append, h.openings, ho], hn, ?_⟩
  rw [hr, each_append]
  refine ⟨h.latest, ?_⟩
  simpa only [openings_append, h.openings] using hes

theorem aside (h : s.Piped) (ha : Aside s t) : t.Piped := by
  obtain ⟨es, hr, he⟩ := ha.record
  have hs : Still es := still_of_forall he
  refine h.grow hr (by rw [ha.opened, hs.openings, Nat.add_zero]) (fun i hi => ?_)
    (hs.output.trans hs.payloads.symm) hs.each
  rw [ha.opened]
  rcases ha.stream with ⟨-, hn⟩ | ⟨-, hn⟩
  · exact h.receiver i (hn ▸ hi)
  · simp [hn] at hi

/-- Something was taken off the stream that was opened last. -/
theorem each_taken (h : s.Piped) {n : Nat} (hn : s.receiver = some n) (e : Option StreamEvent)
    {es : List Entry} (hes : ∀ i x, .received i x ∉ es) :
    Each (fun past e => ∀ i x, e = .received i x → s.opened + Record.openings past = i + 1)
      (.received n e :: es) := by
  rw [each_cons]
  refine ⟨fun i x hx => ?_, ?_⟩
  · obtain ⟨rfl, -⟩ := Entry.received.inj hx
    exact (h.receiver _ hn).symm
  · rintro past x rest rfl i y rfl
    exact absurd (by simp) (hes i y)

variable [Remote ρ]

theorem flows (h : s.Piped) {σ : Stimulus} (hf : Flows s σ t) : t.Piped := by
  cases hf with
  | aside _ ha => exact h.aside ha
  | @opened _ _ m call _ _ _ hop hr _ hk ho =>
      have hone : Record.openings [.handled m, .called call (.ok ())] = 1 := by cases hop <;> rfl
      refine h.grow hr (by rw [ho, hone]) (fun i hi => ?_) rfl (by simp)
      obtain rfl := Option.some.inj (hk.symm.trans hi)
      exact ho.symm
  | @heard _ n e _ _ hn _ _ hr hk ho =>
      have hlast := h.receiver n hn
      refine h.grow hr ?_ (fun i hi => ?_) ?_ (h.each_taken hn _ (by simp))
      · cases hp : e.payload? <;> simp [Record.openings, Entry.opensStream, ho]
      · obtain rfl := Option.some.inj (hn.symm.trans (hk ▸ hi))
        exact hlast.trans ho.symm
      · cases hp : e.payload? <;> simp [Record.output, payloads, hp]
  | @exited n e st _ he hn _ _ =>
      have hr : ∀ es, ((s.note (.received n e)).released es).record =
          s.record ++ .received n e :: es := by simp [released, note]
      refine h.grow (hr _) rfl (by simp [released]) ?_ (h.each_taken hn _ (by simp))
      rcases he with rfl | rfl <;> rfl
  | @broke _ n e _ he hn _ ha _ hnone =>
      obtain ⟨es, hr, hes⟩ := ha.record
      have hs : Still es := still_of_forall hes
      have hp : payloads [.received n e] = [] := by
        rcases he with ⟨rfl | rfl, -⟩ | ⟨f, rfl⟩ <;> rfl
      rw [record_note, List.append_assoc] at hr
      refine h.grow hr ?_ (by simp [hnone]) ?_ (h.each_taken hn e hs.received)
      · rw [openings_append, hs.openings, ha.opened]
        rfl
      · rw [output_append, payloads_append, hp, hs.output, hs.payloads]
        rfl
  | expired _ _ _ _ => exact h.grow rfl rfl (by simp [released]) rfl (by simp)

end Piped

/-! ### What comes off which stream -/

/-- A move takes one thing off the stream that the session listens to, or nothing. -/
theorem Flows.takes [Remote ρ] {σ : Stimulus} (h : Flows s σ t) :
    ∃ es, t.record = s.record ++ es ∧
      ((∀ e, σ ≠ .stream e) ∧ (∀ i x, .received i x ∉ es) ∨
        ∃ n e rest, σ = .stream e ∧ s.receiver = some n ∧ es = .received n e :: rest ∧
          ∀ i x, .received i x ∉ rest) := by
  cases h with
  | aside hσ ha =>
      obtain ⟨es, hr, he⟩ := ha.record
      exact ⟨es, hr, .inl ⟨hσ, (still_of_forall he).received⟩⟩
  | opened hσ _ _ hr _ _ _ => exact ⟨_, hr, .inl ⟨hσ, by simp⟩⟩
  | heard _ hn _ _ hr _ _ => exact ⟨_, hr, .inr ⟨_, _, _, rfl, hn, rfl, by simp⟩⟩
  | exited _ hn _ _ =>
      exact ⟨_, List.append_assoc _ _ _, .inr ⟨_, _, _, rfl, hn, rfl, by simp⟩⟩
  | broke _ hn _ ha _ _ =>
      obtain ⟨es, hr, he⟩ := ha.record
      rw [record_note, List.append_assoc] at hr
      exact ⟨_, hr, .inr ⟨_, _, _, rfl, hn, rfl, (still_of_forall he).received⟩⟩
  | expired _ _ _ _ => exact ⟨_, rfl, .inl ⟨by simp, by simp⟩⟩

/-- A session goes on with its stream, or has none any more, or opens one of a new number. -/
theorem Flows.listens [Remote ρ] {σ : Stimulus} (h : Flows s σ t) :
    t.opened = s.opened ∧ (t.receiver = s.receiver ∨ t.receiver = none) ∨
      t.opened = s.opened + 1 ∧ t.receiver = some s.opened := by
  cases h with
  | aside _ ha =>
      refine .inl ⟨ha.opened, ?_⟩
      rcases ha.stream with ⟨-, hn⟩ | ⟨-, hn⟩
      · exact .inl hn
      · exact .inr hn
  | opened _ _ _ _ _ hk ho => exact .inr ⟨ho, hk⟩
  | heard _ _ _ _ _ hk ho => exact .inl ⟨ho, .inl hk⟩
  | exited _ _ _ _ | expired _ _ _ _ => exact .inl ⟨rfl, .inr rfl⟩
  | broke _ _ _ ha _ hn => exact .inl ⟨ha.opened, .inr hn⟩

/-- A stream that was opened and is not listened to. -/
structure Gone (i : Nat) (s : Session ρ) : Prop where
  opened : i < s.opened
  receiver : s.receiver ≠ some i

/-- Nothing was taken off a stream in between. -/
def Silent (i : Nat) (s t : Session ρ) : Prop :=
  ∃ es, t.record = s.record ++ es ∧ ∀ e, .received i e ∉ es

variable [Remote ρ] {i : Nat}

theorem Gone.flows (h : Gone i s) {σ : Stimulus} (hf : Flows s σ t) : Gone i t ∧ Silent i s t := by
  have hopened := h.opened
  refine ⟨?_, ?_⟩
  · rcases hf.listens with ⟨ho, hn | hn⟩ | ⟨ho, hn⟩
    · exact ⟨ho ▸ h.opened, hn ▸ h.receiver⟩
    · exact ⟨ho ▸ h.opened, by simp [hn]⟩
    · refine ⟨by omega, ?_⟩
      rw [hn, ne_eq, Option.some.injEq]
      omega
  · obtain ⟨es, hr, ⟨-, hes⟩ | ⟨n, e, rest, -, hn, rfl, hrest⟩⟩ := hf.takes
    · exact ⟨es, hr, hes i⟩
    · refine ⟨_, hr, fun x hm => ?_⟩
      rcases List.mem_cons.mp hm with heq | hm
      · obtain ⟨rfl, -⟩ := Entry.received.inj heq
        exact h.receiver hn
      · exact hrest i x hm

/-- Nothing is taken any more off a stream that is not listened to. -/
theorem Gone.run (h : Gone i s) (hs : s.Coherent) (σs : List Stimulus) :
    Gone i (s.run σs) ∧ Silent i s (s.run σs) := by
  -- the streams that are opened later have higher numbers
  refine hs.run_induction (P := fun t => Gone i t ∧ Silent i s t) ?_ ?_ ?_
  · exact ⟨h, [], by simp, by simp⟩
  · rintro t ⟨ht, hst⟩
    exact ⟨⟨ht.opened, ht.receiver⟩, hst⟩
  · rintro t σ t' - ht - ⟨hg, es, hr, he⟩ hm
    obtain ⟨hg', es', hr', he'⟩ := hg.flows (hm.flows ht)
    refine ⟨hg', es ++ es', by rw [hr', hr, List.append_assoc], fun e hmem => ?_⟩
    rcases List.mem_append.mp hmem with hmem | hmem
    · exact he e hmem
    · exact he' e hmem

theorem Piped.run (h : s.Piped) (hs : s.Coherent) (σs : List Stimulus) : (s.run σs).Piped := by
  refine hs.run_induction h ?_ ?_
  · intro t ht
    exact ⟨ht.output, ht.openings, ht.receiver, ht.latest⟩
  · intro t σ t' _ ht _ hp hm
    exact hp.flows (hm.flows ht)

end Session

namespace Sources

open Session Record

variable {ρ : Type} [Remote ρ] {k : Sources ρ}

/-- What was taken off a stream and what it has left. -/
def supply (k : Sources ρ) (i : Nat) : List StreamEvent :=
  delivered i k.session.record ++ k.streams i

omit [Remote ρ] in
theorem streams_spent {t : Turn} (ht : t ≠ .stream) : (k.spent t).streams = k.streams := by
  cases t with
  | stream => exact absurd rfl ht
  | _ => rfl

omit [Remote ρ] in
theorem heard?_eq_stream {t : Turn} {e : Option StreamEvent}
    (h : k.heard? t = some (.stream e)) :
    t = .stream ∧ ∃ n, k.session.receiver = some n ∧ (k.streams n).head? = e := by
  cases t with
  | stream =>
      simp only [heard?, Option.ite_none_right_eq_some, Option.map_eq_some_iff,
        Stimulus.stream.injEq] at h
      exact ⟨rfl, h.2⟩
  | client =>
      simp only [heard?, Option.ite_none_right_eq_some, Option.some.injEq] at h
      cases hm : k.messages <;> simp [hm] at h
  | countdown | prompt | lookup _ | settle | resume | expire | elapse => simp [heard?] at h

/-- What a stream has left is what was not taken off it. -/
theorem supply_step (hs : k.session.Coherent) (t : Turn) : (k.step t).supply = k.supply := by
  funext i
  cases hσ : k.heard? t with
  | none => rw [step_of_unheard hσ]
  | some σ =>
      rw [step_of_heard hσ]
      by_cases ht : t = .elapse
      · subst ht
        obtain rfl := Option.some.inj hσ
        rw [step_elapse]
        rfl
      -- a move of the session takes the head of its stream exactly if the turn was the stream's
      rcases moves_of_heard hs hσ ht with ⟨-, hm⟩ | ⟨rfl, hsame⟩
      · obtain ⟨es, hr, ⟨hstill, hes⟩ | ⟨n, e, rest, rfl, hn, rfl, hrest⟩⟩ := (hm.flows hs).takes
        · have hturn : t ≠ .stream := by
            rintro rfl
            simp only [heard?, Option.ite_none_right_eq_some, Option.map_eq_some_iff] at hσ
            obtain ⟨-, n, -, rfl⟩ := hσ
            exact hstill _ rfl
          simp [supply, hr, delivered_eq_nil hes, streams_spent hturn]
        · obtain ⟨rfl, m, hm', rfl⟩ := heard?_eq_stream hσ
          obtain rfl := Option.some.inj (hn.symm.trans hm')
          simp only [supply, spent, hr, delivered_append, delivered_taken hrest, hn,
            Option.some.injEq, List.append_assoc]
          by_cases hi : n = i
          · subst hi
            cases k.streams n <;> simp
          · simp [hi]
      · rw [hsame]
        rfl

theorem supply_after (hs : k.session.Coherent) (schedule : Nat → Turn) (n : Nat) :
    (k.after schedule n).supply = k.supply := by
  induction n with
  | zero => rfl
  | succ n ih => exact (supply_step (coherent_after hs schedule n) (schedule n)).trans ih

end Sources

/-- The output that goes to the client in frames without text is, octet by octet and in its order,
the output that was taken off streams. What was taken off a stream is a first part of what that
stream delivers. All of it came off the stream that was opened last before it; and nothing comes off
a stream any more once the session does not listen to it. -/
theorem output_relayed {ρ : Type} [Remote ρ] (config : Config) (remote : ρ)
    (cached : Option Credentials) (env : Environment.Pairs) (messages : List Inbound)
    (streams : Nat → List StreamEvent) (countdown : List (Drain.Reception Nat))
    (prompts : List InteractivePrompt) (schedule : Nat → Turn) :
    let run := (Sources.mk (Session.start config remote cached env) messages streams countdown
      prompts).after schedule
    ∀ n, let s := (run n).session
      Record.output s.record = Record.payloads s.record ∧
      ((Record.events s.record).map Http.Frame.ofEvent).filterMap Http.Frame.octets? =
        Record.payloads s.record ∧
      (∀ i, Record.delivered i s.record ++ (run n).streams i = streams i) ∧
      (∀ i, (Record.delivered i s.record).filterMap StreamEvent.payload? <+:
        (streams i).filterMap StreamEvent.payload?) ∧
      Record.Each (fun past e => ∀ i x, e = .received i x → Record.openings past = i + 1) s.record ∧
      (s.receiver.isSome = true ↔ s.phase = .streaming) ∧
      ∀ m, n ≤ m → ∀ i < s.opened, s.receiver ≠ some i →
        ∃ later, (run m).session.record = s.record ++ later ∧ ∀ e, .received i e ∉ later := by
  intro run n s
  let k : Sources ρ :=
    ⟨Session.start config remote cached env, messages, streams, countdown, prompts⟩
  have hstart : (Session.start config remote cached env).Coherent :=
    Session.coherent_start config remote cached env
  have hs : s.Coherent := Sources.coherent_after hstart schedule n
  have hp : s.Piped := by
    obtain ⟨σs, hn⟩ := k.session_after schedule (Nat.zero_le n)
    rw [show s = k.session.run σs from hn]
    exact (Session.piped_start config remote cached env).run hstart σs
  have hsupply : ∀ i, Record.delivered i s.record ++ (run n).streams i = streams i := fun i =>
    congrFun (Sources.supply_after (k := k) hstart schedule n) i
  refine ⟨hp.output, (Record.octets_of_events _).trans hp.output, hsupply, fun i => ?_, hp.latest,
    hs.receiver, fun m hnm i hi hn => ?_⟩
  · rw [← hsupply i, List.filterMap_append]
    exact List.prefix_append _ _
  · obtain ⟨σs, hm⟩ := k.session_after schedule hnm
    have hgone := (Session.Gone.run ⟨hi, hn⟩ hs σs).2
    rw [← show (run m).session = s.run σs from hm] at hgone
    exact hgone

end TerminalGateway

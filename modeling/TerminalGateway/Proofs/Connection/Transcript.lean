import Mathlib.Data.List.Basic
import TerminalGateway.Connection.Relay

/-!
What a relay sends for the messages of a channel: the events of those before the first that ends the
channel, in their order, and then one that tells of the end. A relay that is cancelled, or that
nobody listens to, sends the beginning of that.
-/

namespace TerminalGateway

theorem Signal.label_ofName (name : String) : (Signal.ofName name).label = name := by
  unfold Signal.ofName
  split <;> rfl

/-- An event that tells of the end of its stream. -/
def StreamEvent.isEnd : StreamEvent → Bool
  | .closed | .failed _ => true
  | .data _ | .extendedData _ | .exitStatus _ | .exitSignal _ => false

namespace ChannelMessage

/-- The event of a message that tells something of a program. -/
def image? : ChannelMessage → Option StreamEvent
  | .data bytes => some (.data bytes)
  | .extendedData bytes _ => some (.extendedData bytes)
  | .exitStatus code => some (.exitStatus code)
  | .exitSignal signal => some (.exitSignal signal.label)
  | .close | .failure | .other => none

/-- The event of a message that ends its channel. -/
def conclusion? : ChannelMessage → Option StreamEvent
  | .close => some .closed
  | .failure => some (.failed (.stream "Channel request rejected by server"))
  | _ => none

/-- A message that does not end its channel. -/
def goesOn (m : ChannelMessage) : Bool := m.conclusion?.isNone

theorem isEnd_image {m : ChannelMessage} {e : StreamEvent} (h : m.image? = some e) :
    e.isEnd = false := by
  cases m with
  | data _ | extendedData _ _ | exitStatus _ | exitSignal _ => cases h; rfl
  | close | failure | other => cases h

theorem isEnd_conclusion {m : ChannelMessage} {e : StreamEvent} (h : m.conclusion? = some e) :
    e.isEnd = true := by
  cases m with
  | close | failure => cases h; rfl
  | data _ | extendedData _ _ | exitStatus _ | exitSignal _ | other => cases h

end ChannelMessage

namespace Relay

open ChannelMessage

/-- The event of a channel that ends without a message. -/
def lost : StreamEvent := .failed ⟨some "ECONNRESET", some .clientSocket, "SSH connection lost"⟩

/-- The events of the messages before the first that ends the channel. -/
def body (ms : List ChannelMessage) : List StreamEvent := (ms.takeWhile goesOn).filterMap image?

/-- The event that tells of the end of the channel. -/
def conclusion (ms : List ChannelMessage) : StreamEvent := (ms.findSome? conclusion?).getD lost

/-- All that a relay sends for the messages of a channel. -/
def transcript (ms : List ChannelMessage) : List StreamEvent := body ms ++ [conclusion ms]

theorem isEnd_body {ms : List ChannelMessage} {e : StreamEvent} (h : e ∈ body ms) :
    e.isEnd = false := by
  obtain ⟨m, -, hm⟩ := List.mem_filterMap.mp h
  exact isEnd_image hm

theorem isEnd_conclusion (ms : List ChannelMessage) : (conclusion ms).isEnd = true := by
  cases h : ms.findSome? conclusion? with
  | none => rw [conclusion, h]; rfl
  | some e =>
      obtain ⟨m, -, hm⟩ := List.exists_of_findSome?_eq_some h
      rw [conclusion, h]
      exact ChannelMessage.isEnd_conclusion hm

/-- What becomes of the next message decides how the transcript begins. -/
theorem transcript_next (ms : List ChannelMessage) :
    transcript ms =
      match Relayed.of ms.head? with
      | .skipped => transcript ms.tail
      | .event e => e :: transcript ms.tail
      | .last e => [e] := by
  cases ms with
  | nil => rfl
  | cons m ms =>
      cases m with
      | data _ | extendedData _ _ | exitStatus _ | exitSignal _ | other | close | failure => rfl

/-! ### What a relay still sends -/

variable {r : Relay}

/-- What a relay that is let go on still sends. -/
def owed (r : Relay) : List StreamEvent :=
  match r.stage with
  | .listening => transcript r.inbox
  | .offering e isLast => e :: if isLast then [] else transcript r.inbox
  | .stopped => []

/-- What a relay has sent, and what it sends when it is let go on. -/
def told (r : Relay) : List StreamEvent := r.sent ++ r.owed

/-- Nothing keeps the relay from going on. -/
def isFree (r : Relay) : Bool := !r.cancelled && !r.abandoned

/-- What a turn does. -/
inductive Does (r : Relay) : Turn → Relay → Prop
  | rested (t : Turn) : Does r t r
  | skipped : r.stage = .listening → Relayed.of r.inbox.head? = .skipped →
      Does r .read { r with inbox := r.inbox.tail }
  | offered {e : StreamEvent} : r.stage = .listening → Relayed.of r.inbox.head? = .event e →
      Does r .read { r with inbox := r.inbox.tail, stage := .offering e false }
  | concluded {e : StreamEvent} : r.stage = .listening → Relayed.of r.inbox.head? = .last e →
      Does r .read { r with inbox := r.inbox.tail, stage := .offering e true }
  | handed {e : StreamEvent} {isLast : Bool} : r.stage = .offering e isLast → r.hasRoom = true →
      Does r .hand
        { r with sent := r.sent ++ [e], stage := if isLast then .stopped else .listening }
  | gaveUp (t : Turn) : r.isFree = false → Does r t { r with stage := .stopped }
  | took : r.taken < r.sent.length → Does r .take { r with taken := r.taken + 1 }
  | cancelled : Does r .cancel { r with cancelled := true }
  | abandoned : Does r .abandon { r with abandoned := true }

theorem does_step (r : Relay) (t : Turn) : Does r t (r.step t) := by
  cases t with
  | read =>
      simp only [step, read]
      split
      · exact .rested _
      case isFalse hs =>
        have hs : r.stage = .listening := by simpa using hs
        cases hm : Relayed.of r.inbox.head? with
        | skipped => exact .skipped hs hm
        | event e => exact .offered hs hm
        | last e => exact .concluded hs hm
  | hand =>
      simp only [step, hand]
      cases hs : r.stage with
      | listening | stopped => exact .rested _
      | offering e isLast =>
          simp only
          split
          case isTrue ha => exact .gaveUp _ (by simp [isFree, ha])
          case isFalse =>
            split
            case isTrue hr => exact .handed hs hr
            case isFalse => exact .rested _
  | take =>
      simp only [step, take]
      split
      case isTrue h => exact .took h.1
      case isFalse => exact .rested _
  | cancel => exact .cancelled
  | abandon => exact .abandoned
  | heed =>
      simp only [step, heed]
      split
      case isTrue h => exact .gaveUp _ (by simp [isFree, h.1])
      case isFalse => exact .rested _

/-- A turn keeps what a relay tells, or the relay stops because it was cancelled or nobody
listens. -/
theorem step_cases (r : Relay) (t : Turn) :
    (r.step t).told = r.told ∨
      r.isFree = false ∧ (r.step t).stage = .stopped ∧ (r.step t).sent = r.sent := by
  have hd : Does r t (r.step t) := does_step r t
  generalize r.step t = r' at hd
  cases hd with
  | rested | took _ | cancelled | abandoned => exact .inl rfl
  | skipped hs hm | offered hs hm | concluded hs hm =>
      exact .inl (by simp [told, owed, hs, transcript_next r.inbox, hm])
  | @handed e isLast hs _ => exact .inl (by cases isLast <;> simp [told, owed, hs])
  | gaveUp _ hf => exact .inr ⟨hf, rfl, rfl⟩

theorem sent_step (r : Relay) (t : Turn) : r.sent <+: (r.step t).sent := by
  have hd : Does r t (r.step t) := does_step r t
  generalize r.step t = r' at hd
  cases hd with
  | handed _ _ => exact List.prefix_append _ _
  | rested | skipped _ _ | offered _ _ | concluded _ _ | gaveUp _ _ | took _ | cancelled
  | abandoned => exact List.prefix_rfl

theorem isFree_step {t : Turn} (ht : t ≠ .cancel ∧ t ≠ .abandon) :
    (r.step t).isFree = r.isFree := by
  have hd : Does r t (r.step t) := does_step r t
  generalize r.step t = r' at hd
  cases hd with
  | rested | skipped _ _ | offered _ _ | concluded _ _ | handed _ _ | gaveUp _ _ | took _ => rfl
  | cancelled => exact absurd rfl ht.1
  | abandoned => exact absurd rfl ht.2

theorem isFree_of_step {t : Turn} (h : (r.step t).isFree = true) : r.isFree = true := by
  have ht : t ≠ .cancel ∧ t ≠ .abandon := by
    constructor <;> rintro rfl <;> simp [step, isFree] at h
  rw [← isFree_step ht]
  exact h

theorem step_stopped (h : r.stage = .stopped) (t : Turn) :
    (r.step t).stage = .stopped ∧ (r.step t).sent = r.sent := by
  have hd : Does r t (r.step t) := does_step r t
  generalize r.step t = r' at hd
  cases hd with
  | rested | took _ | cancelled | abandoned => exact ⟨h, rfl⟩
  | gaveUp _ _ => exact ⟨rfl, rfl⟩
  | skipped hs _ | offered hs _ | concluded hs _ | handed hs _ => rw [h] at hs; cases hs

/-! ### Runs -/

/-- A relay that has stopped sends nothing more. -/
theorem sent_run_stopped (h : r.stage = .stopped) (ts : List Turn) : (r.run ts).sent = r.sent := by
  induction ts generalizing r with
  | nil => rfl
  | cons t ts ih =>
      obtain ⟨hs, he⟩ := step_stopped h t
      exact (ih hs).trans he

theorem sent_run (r : Relay) (ts : List Turn) : r.sent <+: (r.run ts).sent := by
  induction ts generalizing r with
  | nil => exact List.prefix_rfl
  | cons t ts ih => exact (sent_step r t).trans (ih _)

/-- A relay tells the transcript of its channel, or was cut short. -/
structure Tells (ms : List ChannelMessage) (r : Relay) : Prop where
  told : r.told <+: transcript ms
  whole : r.isFree = true → r.told = transcript ms

theorem Tells.step {ms : List ChannelMessage} (h : Tells ms r) (t : Turn) :
    Tells ms (r.step t) := by
  rcases step_cases r t with heq | ⟨hf, hs, he⟩
  · exact ⟨heq ▸ h.told, fun hf => heq.trans (h.whole (isFree_of_step hf))⟩
  · have ht : (r.step t).told = r.sent := by simp [Relay.told, owed, hs, he]
    refine ⟨ht ▸ (List.prefix_append _ _).trans h.told, fun hf' => ?_⟩
    rw [isFree_of_step hf'] at hf
    cases hf

theorem Tells.run {ms : List ChannelMessage} (h : Tells ms r) (ts : List Turn) :
    Tells ms (r.run ts) := by
  induction ts generalizing r with
  | nil => exact h
  | cons t ts ih => exact ih (h.step t)

theorem tells_start (ms : List ChannelMessage) : Tells ms (start ms) :=
  ⟨List.prefix_rfl, fun _ => rfl⟩

theorem Tells.sent {ms : List ChannelMessage} (h : Tells ms r) : r.sent <+: transcript ms :=
  (List.prefix_append _ _).trans h.told

theorem owed_eq_nil : r.owed = [] ↔ r.stage = .stopped := by
  cases hs : r.stage <;> simp [owed, hs, transcript]

/-- A relay that is let go on stops when it has sent everything and not before. -/
theorem Tells.stopped_iff {ms : List ChannelMessage} (h : Tells ms r) (hf : r.isFree = true) :
    r.stage = .stopped ↔ r.sent = transcript ms := by
  have hw : r.sent ++ r.owed = transcript ms := h.whole hf
  rw [← owed_eq_nil, ← hw]
  simp

/-- What tells of the end is the last in what a relay sends. -/
theorem Tells.sent_end {ms : List ChannelMessage} (h : Tells ms r) {e : StreamEvent}
    (he : e ∈ r.sent) (hl : e.isEnd = true) : r.sent = transcript ms := by
  rcases List.prefix_concat_iff.mp h.sent with heq | hp
  · exact heq
  · have := isEnd_body (hp.subset he)
    rw [hl] at this
    cases this

/-! ### Coming to the end -/

/-- How many turns a relay needs that is never kept waiting. -/
def rank (r : Relay) : Nat :=
  match r.stage with
  | .listening => 2 * r.inbox.length + 2
  | .offering _ isLast => if isLast then 1 else 2 * r.inbox.length + 3
  | .stopped => 0

/-- A relay that waits, while what it has sent may be taken. -/
structure Waits (r r' : Relay) : Prop where
  stage : r'.stage = r.stage
  inbox : r'.inbox = r.inbox
  sent : r'.sent = r.sent
  taken : r.taken ≤ r'.taken

theorem Waits.refl (r : Relay) : Waits r r := ⟨rfl, rfl, rfl, Nat.le_refl _⟩

theorem Waits.trans {r' r'' : Relay} (h : Waits r r') (h' : Waits r' r'') : Waits r r'' :=
  ⟨h'.stage.trans h.stage, h'.inbox.trans h.inbox, h'.sent.trans h.sent,
    Nat.le_trans h.taken h'.taken⟩

theorem Waits.rank {r' : Relay} (h : Waits r r') : r'.rank = r.rank := by
  simp only [Relay.rank, h.stage, h.inbox]

/-- No more events wait to be taken than there is room for, and none was taken that was not
sent. -/
def Fits (r : Relay) : Prop := r.taken ≤ r.sent.length ∧ r.sent.length ≤ r.taken + capacity

theorem Fits.step (h : r.Fits) (t : Turn) : (r.step t).Fits := by
  have hd : Does r t (r.step t) := does_step r t
  generalize r.step t = r' at hd
  obtain ⟨hl, hu⟩ := h
  cases hd with
  | rested | skipped _ _ | offered _ _ | concluded _ _ | gaveUp _ _ | cancelled | abandoned =>
      exact ⟨hl, hu⟩
  | took ht => exact ⟨ht, Nat.le_trans hu (by simp)⟩
  | handed _ hr =>
      have hr : r.sent.length < r.taken + capacity := by simpa [hasRoom] using hr
      simp only [Fits, List.length_append, List.length_singleton]
      omega

theorem rank_read (h : r.stage = .listening) : r.read.rank < r.rank := by
  cases hi : r.inbox with
  | nil => simp [read, h, hi, Relayed.of, rank]
  | cons m ms =>
      cases hm : Relayed.of (some m) <;> simp [read, h, hi, hm, rank]
      omega

theorem rank_hand {e : StreamEvent} {isLast : Bool} (h : r.stage = .offering e isLast)
    (hf : r.isFree = true) (hr : r.hasRoom = true) : r.hand.rank < r.rank := by
  have ha : r.abandoned = false := by simp [isFree] at hf; exact hf.2
  cases isLast <;> simp [hand, h, ha, hr, rank]

theorem hasRoom_take (h : r.Fits) (hf : r.isFree = true) : r.take.hasRoom = true := by
  have ha : r.abandoned = false := by simp [isFree] at hf; exact hf.2
  obtain ⟨hl, hu⟩ := h
  simp only [hasRoom, decide_eq_true_eq]
  unfold take
  split
  case isTrue ht =>
    simp only
    omega
  case isFalse ht =>
    have : r.sent.length ≤ r.taken := by simpa [ha] using ht
    simp only [capacity]
    omega

theorem step_progress (t : Turn) (hf : (r.step t).isFree = true) :
    (r.step t).rank < r.rank ∨ Waits r (r.step t) := by
  have hr : r.isFree = true := isFree_of_step hf
  cases t with
  | read =>
      by_cases hs : r.stage = .listening
      · exact .inl (rank_read hs)
      · exact .inr (by simp [step, read, hs, Waits.refl])
  | take =>
      simp only [step, take]
      split
      · exact .inr ⟨rfl, rfl, rfl, Nat.le_succ _⟩
      · exact .inr (.refl r)
  | cancel | abandon => simp [step, isFree] at hf
  | heed =>
      have hc : r.cancelled = false := by simp [isFree] at hr; exact hr.1
      exact .inr (by simp [step, heed, hc, Waits.refl])
  | hand =>
      cases hs : r.stage with
      | offering e isLast =>
          by_cases hm : r.hasRoom = true
          · exact .inl (rank_hand hs hr hm)
          · have ha : r.abandoned = false := by simp [isFree] at hr; exact hr.2
            exact .inr (by simp [step, hand, hs, ha, hm, Waits.refl])
      | listening | stopped => exact .inr (by simp [step, hand, hs, Waits.refl])

/-- The channel, the relay and the one who listens all get their turns again and again. -/
def Fair (schedule : Nat → Turn) : Prop :=
  ∀ t ∈ [Turn.read, .hand, .take], ∀ n, ∃ m, n ≤ m ∧ schedule m = t

section Schedules

variable {schedule : Nat → Turn} {ms : List ChannelMessage}

theorem Tells.after (h : Tells ms r) (schedule : Nat → Turn) (n : Nat) :
    Tells ms (r.after schedule n) := by
  induction n with
  | zero => exact h
  | succ n ih => exact ih.step _

theorem Fits.after (h : r.Fits) (schedule : Nat → Turn) (n : Nat) : (r.after schedule n).Fits := by
  induction n with
  | zero => exact h
  | succ n ih => exact ih.step _

theorem stopped_after {n m : Nat} (hs : (r.after schedule n).stage = .stopped) (h : n ≤ m) :
    (r.after schedule m).stage = .stopped := by
  induction h with
  | refl => exact hs
  | step _ ih => exact (step_stopped ih _).1

variable (hf : ∀ n, (r.after schedule n).isFree = true)

include hf

theorem after_progress {n m : Nat} (h : n ≤ m) :
    (r.after schedule m).rank < (r.after schedule n).rank ∨
      Waits (r.after schedule n) (r.after schedule m) := by
  induction h with
  | refl => exact .inr (.refl _)
  | @step m _ ih =>
      have hs := step_progress (schedule m) (hf (m + 1))
      rcases ih with ih | ih <;> rcases hs with hs | hs
      · exact .inl (Nat.lt_trans hs ih)
      · exact .inl (by rw [after, hs.rank]; exact ih)
      · exact .inl (by rw [← ih.rank]; exact hs)
      · exact .inr (ih.trans hs)

theorem after_descends (h : Fair schedule) (hfit : r.Fits) (n : Nat)
    (hs : (r.after schedule n).stage ≠ .stopped) :
    ∃ m, n ≤ m ∧ (r.after schedule m).rank < (r.after schedule n).rank := by
  cases hst : (r.after schedule n).stage with
  | stopped => exact absurd hst hs
  | listening =>
      obtain ⟨m, hm, ht⟩ := h .read (by simp) n
      rcases after_progress hf hm with hp | hw
      · exact ⟨m, hm, hp⟩
      refine ⟨m + 1, by omega, ?_⟩
      rw [after, ht, ← hw.rank]
      exact rank_read (hw.stage.trans hst)
  | offering e isLast =>
      -- Somebody takes an event, so there is room when the relay hands its own over.
      obtain ⟨k, hk, ht⟩ := h .take (by simp) n
      obtain ⟨m, hm, ht'⟩ := h .hand (by simp) (k + 1)
      rcases after_progress hf (show n ≤ k + 1 by omega) with hp | hw
      · exact ⟨k + 1, by omega, hp⟩
      rcases after_progress hf hm with hp | hw'
      · exact ⟨m, by omega, by rw [← hw.rank]; exact hp⟩
      have hroom : (r.after schedule m).hasRoom = true := by
        have hr : (r.after schedule (k + 1)).hasRoom = true := by
          rw [after, ht]
          exact hasRoom_take (hfit.after schedule k) (hf k)
        have := hw'.taken
        simp only [hasRoom, decide_eq_true_eq, hw'.sent] at hr ⊢
        omega
      refine ⟨m + 1, by omega, ?_⟩
      rw [after, ht', ← hw.rank, ← hw'.rank]
      exact rank_hand (hw'.stage.trans (hw.stage.trans hst)) (hf m) hroom

theorem after_stops (h : Fair schedule) (hfit : r.Fits) (n : Nat) :
    ∃ m, (r.after schedule m).stage = .stopped := by
  induction hr : (r.after schedule n).rank using Nat.strongRecOn generalizing n with
  | ind k ih =>
      by_cases hs : (r.after schedule n).stage = .stopped
      · exact ⟨n, hs⟩
      · obtain ⟨m, -, hlt⟩ := after_descends hf h hfit n hs
        exact ih _ (hr ▸ hlt) m rfl

omit hf in
theorem isFree_after (h : r.isFree = true)
    (hn : ∀ n, schedule n ≠ .cancel ∧ schedule n ≠ .abandon) (n : Nat) :
    (r.after schedule n).isFree = true := by
  induction n with
  | zero => exact h
  | succ n ih => exact (isFree_step (hn n)).trans ih

end Schedules

/-- The channel, the relay and the one who listens, one after another. -/
def inTurn (n : Nat) : Turn :=
  match n % 3 with
  | 0 => .read
  | 1 => .hand
  | _ => .take

theorem fair_inTurn : Fair inTurn := by
  intro t ht n
  have : t = .read ∨ t = .hand ∨ t = .take := by simpa using ht
  rcases this with rfl | rfl | rfl
  · exact ⟨3 * n, by omega, by simp [inTurn]⟩
  · exact ⟨3 * n + 1, by omega, by simp [inTurn, Nat.add_mod]⟩
  · exact ⟨3 * n + 2, by omega, by simp [inTurn, Nat.add_mod]⟩

theorem inTurn_calm (n : Nat) : inTurn n ≠ .cancel ∧ inTurn n ≠ .abandon := by
  unfold inTurn
  split <;> simp

/-! ### What a relay sends -/

/-- A relay sends the events of its messages up to the end of the channel, one that tells of the
end, and then nothing. Unless it is cancelled or nobody listens it sends all of them. -/
theorem relays_transcript (ms : List ChannelMessage) :
    (∀ e ∈ body ms, e.isEnd = false) ∧ (conclusion ms).isEnd = true ∧
    (∀ ts : List Turn,
      ((start ms).run ts).sent <+: transcript ms ∧
      (((start ms).run ts).isFree = true →
        ((start ms).run ts).sent ++ ((start ms).run ts).owed = transcript ms ∧
        (((start ms).run ts).stage = .stopped ↔ ((start ms).run ts).sent = transcript ms)) ∧
      ((((start ms).run ts).stage = .stopped ∨ ∃ e ∈ ((start ms).run ts).sent, e.isEnd = true) →
        ∀ ts', (((start ms).run ts).run ts').sent = ((start ms).run ts).sent)) ∧
    ∀ schedule : Nat → Turn, Fair schedule →
      (∀ n, ((start ms).after schedule n).isFree = true) →
      ∃ n, ∀ m, n ≤ m → ((start ms).after schedule m).sent = transcript ms := by
  refine ⟨fun e => isEnd_body, isEnd_conclusion ms, fun ts => ?_, fun schedule h hf => ?_⟩
  · have ht : Tells ms ((start ms).run ts) := (tells_start ms).run ts
    refine ⟨ht.sent, fun hf => ⟨ht.whole hf, ht.stopped_iff hf⟩, fun h ts' => ?_⟩
    rcases h with hs | ⟨e, he, hl⟩
    · exact sent_run_stopped hs ts'
    · have hw : ((start ms).run ts).sent = transcript ms := ht.sent_end he hl
      have hp : ((start ms).run ts).sent <+: (((start ms).run ts).run ts').sent := sent_run _ ts'
      rw [hw] at hp ⊢
      exact (ht.run ts').sent.eq_of_length_le hp.length_le
  · obtain ⟨n, hs⟩ := after_stops hf h (by simp [Fits, start]) 0
    refine ⟨n, fun m hm => ?_⟩
    have ht : Tells ms ((start ms).after schedule m) := (tells_start ms).after schedule m
    exact (ht.stopped_iff (hf m)).mp (stopped_after hs hm)

/-- Output and an exit status are relayed until the channel is closed, and nothing that comes
later. -/
theorem relays_until_closed :
    ∃ n, ∀ m, n ≤ m →
      ((start [.data [104, 105], .other, .exitStatus 3, .close, .data [0]]).after inTurn m).sent =
        [.data [104, 105], .exitStatus 3, .closed] :=
  (relays_transcript _).2.2.2 inTurn fair_inTurn (isFree_after rfl inTurn_calm)

/-- A relay that is cancelled while it waits for a message. -/
example :
    ((start [.data [104], .data [105], .close]).run [.read, .hand, .cancel, .heed, .read]).sent =
      [.data [104]] := by
  decide

end Relay

end TerminalGateway

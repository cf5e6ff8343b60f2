import TerminalGateway.Http.Socket
import TerminalGateway.Proofs.Config
import TerminalGateway.Proofs.Session.Coherence
import TerminalGateway.Proofs.Session.Traffic
import TerminalGateway.Session.Scripted

/-!
Every message on a socket reaches its session once and in order, whether the session takes it up at
once or keeps it during an attempt to connect. A session that leaves some of them was cut short.
-/

namespace TerminalGateway.Http

open Session

theorem Frame.messages_next (frames : List (Option Frame)) :
    messages frames = (next frames).1.message?.toList ++ messages (next frames).2 := by
  induction frames with
  | nil => rfl
  | cons f rest ih =>
      match f with
      | none | some .close => simp [messages, next, Stimulus.message?]
      | some (.text _) | some (.binary _) => rfl
      | some (.ping _) | some (.pong _) => simpa [messages, next, message?] using ih

theorem Frame.next_cases (frames : List (Option Frame)) :
    (∃ m, (next frames).1 = .message m) ∨ (next frames).1 = .departed ∧ messages frames = [] := by
  induction frames with
  | nil => exact .inr ⟨rfl, rfl⟩
  | cons f rest ih =>
      match f with
      | none | some .close => exact .inr ⟨rfl, by simp [messages]⟩
      | some (.text s) => exact .inl ⟨_, rfl⟩
      | some (.binary bytes) => exact .inl ⟨_, rfl⟩
      | some (.ping _) | some (.pong _) => simpa [messages, next, message?] using ih

namespace Socket

variable {ρ : Type} {k : Socket ρ}

/-! ### What a session waits for -/

/-- All messages of the socket, those included that have left it. -/
def messages (k : Socket ρ) : List Inbound := k.session.taken ++ Frame.messages k.unread

/-- Nothing changed on the socket or in the session that matters to the messages. -/
def Stays (k k' : Socket ρ) : Prop :=
  Session.Stays k.session k'.session ∧ Frame.messages k'.unread = Frame.messages k.unread

/-- What a session waits for that has something left to do for its client. -/
def Awaits (k : Socket ρ) : Occasion → Prop
  | .read => k.session.isListening = true ∧ Frame.messages k.unread ≠ []
  | .other (.resolved found) => k.session.heeds (.resolved found) = true
  | .other .settle => k.session.heeds .settle = true
  | .other .resume => k.session.heeds .resume = true
  | .other _ => False

/-- Nothing that a session waits for is put off for ever. -/
def Fair (run : Nat → Socket ρ) (schedule : Nat → Occasion) : Prop :=
  ∀ n o, ∃ m, n ≤ m ∧ ((run m).Awaits o → schedule m = o)

def load (k : Socket ρ) : Nat := 5 * (Frame.messages k.unread).length + k.session.load

theorem Stays.refl (k : Socket ρ) : k.Stays k := ⟨.refl _, rfl⟩

theorem Stays.trans {k' k'' : Socket ρ} (h : k.Stays k') (h' : k'.Stays k'') : k.Stays k'' :=
  ⟨h.1.trans h'.1, h'.2.trans h.2⟩

theorem Stays.awaits {k' : Socket ρ} (h : k.Stays k') {o : Occasion} (ha : k.Awaits o) :
    k'.Awaits o := by
  obtain ⟨⟨⟨hb, -⟩, hl, hat, hc⟩, hm⟩ := h
  unfold Awaits at ha ⊢
  split at ha <;> simp_all [heeds, isListening]

theorem Stays.load {k' : Socket ρ} (h : k.Stays k') : k'.load = k.load := by
  rw [Socket.load, Socket.load, h.1.load, h.2]

/-- A session that goes on waits for something unless all messages were handled. -/
theorem awaits_or_done (hc : k.session.isClosing = false) :
    (∃ o, k.Awaits o) ∨ Record.handled k.session.record = k.messages := by
  cases hl : k.session.lookup with
  | some c => exact .inl ⟨.other (.resolved (.ok [])), by simp [Awaits, heeds, hc, hl]⟩
  | none =>
      cases ha : k.session.attempt with
      | some a => exact .inl ⟨.other .settle, by simp [Awaits, heeds, hc, hl, ha]⟩
      | none =>
          cases hb : k.session.backlog with
          | cons m rest =>
              exact .inl ⟨.other .resume, by simp [Awaits, heeds, hc, hl, ha, hb]⟩
          | nil =>
              by_cases hm : Frame.messages k.unread = []
              · exact .inr (by simp [messages, taken, hb, hm])
              · exact .inl ⟨.read, by simp [isListening, hc, hl, ha, hb], hm⟩

/-! ### Steps -/

variable [Remote ρ]

/-- The session learned something and moved. What it learned was a message if one left the
socket. -/
def Moves (k : Socket ρ) (o : Occasion) (k' : Socket ρ) : Prop :=
  k.session.Open ∧ ∃ σ, k.told o = some σ ∧ Session.Moves k.session σ k'.session ∧
    Frame.messages k.unread = σ.message?.toList ++ Frame.messages k'.unread

theorem moves_of_heeds (h : k.session.Coherent) {o : Occasion} {σ : Stimulus}
    (hσ : k.told o = some σ) (he : σ ≠ .elapse) (hh : k.session.heeds σ = true)
    (hc : k.session.isClosing = false)
    (hm : Frame.messages k.unread = σ.message?.toList ++ Frame.messages (k.left o)) :
    k.Moves o (k.step o) := by
  have ho : k.session.Open := h.isOpen hc
  have hr : k.session.receiver.isSome = true → k.session.stream.isSome = true := fun hr =>
    h.stream.mpr (h.receiver.mp hr)
  refine ⟨ho, σ, hσ, ?_, hm⟩
  rcases ho.steps hr he with ⟨hn, -⟩ | hmove
  · simp [hh] at hn
  · simpa [step, hσ] using hmove

theorem moves_read (h : k.session.Coherent) (hh : k.session.isHearing = true) :
    k.Moves .read (k.step .read) := by
  have hσ : k.told .read = some (Frame.next k.unread).1 := by simp [told, hh]
  have hc : k.session.isClosing = false := by
    simp only [isHearing, Bool.and_eq_true, Bool.not_eq_true'] at hh
    exact hh.1.1
  have hm := Frame.messages_next k.unread
  have hleft : k.left .read = (Frame.next k.unread).2 := by simp [left, hh]
  rw [← hleft] at hm
  rcases Frame.next_cases k.unread with ⟨m, hn⟩ | ⟨hn, -⟩ <;>
    exact moves_of_heeds h hσ (by simp [hn]) (by simpa [hn, heeds] using hh) hc hm

theorem step_cases (h : k.session.Coherent) (o : Occasion) :
    k.Stays (k.step o) ∨ k.Moves o (k.step o) := by
  cases o with
  | read =>
      cases hh : k.session.isHearing with
      | true => exact .inr (moves_read h hh)
      | false => exact .inl (by simp [Stays, step, told, left, hh, Session.Stays.refl])
  | other σ =>
      cases hσ : k.told (.other σ) with
      | none => exact .inl (by simp [Stays, step, left, hσ, Session.Stays.refl])
      | some τ =>
          obtain ⟨rfl, hm⟩ : τ = σ ∧ σ.message? = none := by
            cases σ <;> simp_all [told, Stimulus.message?]
          have hs : (k.step (.other τ)).session = k.session.step τ := by simp [step, hσ]
          rcases h.step_cases τ with ⟨-, hstep⟩ | hstep | ⟨ho, hmove⟩
          · exact .inl ⟨by rw [hs, hstep]; exact .tick _, rfl⟩
          · exact .inl ⟨by rw [hs, hstep]; exact .refl _, rfl⟩
          · exact .inr ⟨ho, τ, hσ, by rwa [hs], by simp [hm, step, left]⟩

theorem coherent_step (h : k.session.Coherent) (o : Occasion) : (k.step o).session.Coherent := by
  cases hσ : k.told o with
  | none => simpa [step, hσ] using h
  | some σ => simpa [step, hσ] using h.step σ

theorem messages_step (h : k.session.Coherent) (o : Occasion) :
    (k.step o).messages = k.messages := by
  rcases step_cases h o with ⟨hs, hu⟩ | ⟨-, σ, -, hm, hu⟩
  · rw [messages, messages, hs.continues.taken, hu]
  · rw [messages, messages, hm.taken, hu, List.append_assoc]

theorem handled_step_of_closing (h : k.session.Coherent) (hc : k.session.isClosing = true)
    (o : Occasion) : (k.step o).session.isClosing = true ∧
      Record.handled (k.step o).session.record = Record.handled k.session.record := by
  rcases step_cases h o with ⟨hs, -⟩ | ⟨ho, -⟩
  · exact ⟨hs.goesOn.trans hc, hs.continues.handled⟩
  · simp [ho.goesOn] at hc

/-- A session ends because it was cut short, or its client left it when it had handled
everything. -/
theorem cut_of_closes (h : k.session.Coherent) (hc : k.session.isClosing = false) {o : Occasion}
    (hc' : (k.step o).session.isClosing = true) :
    (∃ σ, k.told o = some σ ∧ Cut k.session σ) ∨
      Record.handled (k.step o).session.record = k.messages := by
  rcases step_cases h o with ⟨hs, -⟩ | ⟨ho, σ, hσ, hm, hu⟩
  · simp [hs.goesOn, hc] at hc'
  rcases hm.cut ho hc' with hcut | ⟨rfl, hi⟩
  · exact .inl ⟨σ, hσ, hcut⟩
  refine .inr ?_
  obtain ⟨-, -, -, hb⟩ := isListening_iff.mp hi
  have hempty : Frame.messages k.unread = [] := by
    cases o with
    | other τ => cases τ <;> simp [told] at hσ
    | read =>
        rcases Frame.next_cases k.unread with ⟨m, hn⟩ | ⟨-, hn⟩
        · simp [told, hn] at hσ
        · exact hn
  have hk : Continues k.session (k.step o).session := hm.continues rfl (by simp)
  rw [hk.handled, messages, taken, hb, hempty, List.append_nil, List.append_nil]

/-! ### Progress -/

theorem moves_of_awaits (h : k.session.Coherent) {o : Occasion} (ha : k.Awaits o) :
    ∃ σ, k.told o = some σ ∧ σ.isAside = false ∧ k.Moves o (k.step o) := by
  have hopen : ∀ {σ}, k.session.heeds σ = true → σ ∈ [.settle, .resume] ∨
      (∃ found, σ = .resolved found) → k.session.isClosing = false := by
    rintro σ hh hσ
    simp only [List.mem_cons, List.not_mem_nil, or_false] at hσ
    rcases hσ with (rfl | rfl) | ⟨found, rfl⟩ <;>
      simp only [heeds, Bool.and_eq_true, Bool.not_eq_true'] at hh <;> simp [hh]
  cases o with
  | read =>
      obtain ⟨hi, hm⟩ := ha
      have hh : k.session.isHearing = true := by
        obtain ⟨hc, hl, hat, hb⟩ := isListening_iff.mp hi
        simp [isHearing, hc, hl, hat, hb]
      refine ⟨(Frame.next k.unread).1, by simp [told, hh], ?_, moves_read h hh⟩
      rcases Frame.next_cases k.unread with ⟨m, hn⟩ | ⟨hn, -⟩ <;> simp [hn, Stimulus.isAside]
  | other σ =>
      cases σ with
      | resolved _ | settle | resume =>
          exact ⟨_, rfl, rfl, moves_of_heeds h rfl (by simp) ha (hopen ha (by simp)) rfl⟩
      | message _ | departed | stream _ | countdown _ | prompt _ | expire | elapse =>
          exact absurd ha id

theorem Moves.advances {o : Occasion} {k' : Socket ρ} (h : k.Moves o k') :
    k'.session.isClosing = true ∨ k'.load < k.load ∨
      k.Stays k' ∧ ∀ σ, k.told o = some σ → σ.isAside = true := by
  obtain ⟨ho, σ, hσ, hm, hu⟩ := h
  rcases hm.advances ho with hc | hl | ⟨hs, haside⟩
  · exact .inl hc
  · refine .inr (.inl ?_)
    have hlen := congrArg List.length hu
    rw [List.length_append] at hlen
    rw [load, load]
    omega
  · have hnone : σ.message? = none := by cases σ <;> simp_all [Stimulus.isAside, Stimulus.message?]
    refine .inr (.inr ⟨⟨hs, by simp [hu, hnone]⟩, fun τ hτ => ?_⟩)
    obtain rfl := Option.some.inj (hσ.symm.trans hτ)
    exact haside

theorem advances_of_awaits (h : k.session.Coherent) {o : Occasion} (ha : k.Awaits o) :
    (k.step o).session.isClosing = true ∨ (k.step o).load < k.load := by
  obtain ⟨σ, hσ, haside, hm⟩ := moves_of_awaits h ha
  rcases hm.advances with hc | hl | ⟨-, hall⟩
  · exact .inl hc
  · exact .inr hl
  · simp [hall σ hσ] at haside

/-! ### Runs -/

theorem coherent_after (h : k.session.Coherent) (schedule : Nat → Occasion) (n : Nat) :
    (k.after schedule n).session.Coherent := by
  induction n with
  | zero => exact h
  | succ n ih => exact coherent_step ih (schedule n)

theorem messages_after (h : k.session.Coherent) (schedule : Nat → Occasion) (n : Nat) :
    (k.after schedule n).messages = k.messages := by
  induction n with
  | zero => rfl
  | succ n ih => exact (messages_step (coherent_after h schedule n) (schedule n)).trans ih

/-- All messages were handled unless the session was cut short. -/
theorem cut_after (h : k.session.Coherent) (ho : k.session.isClosing = false)
    (schedule : Nat → Occasion) (n : Nat)
    (hc : (k.after schedule n).session.isClosing = true) :
    Record.handled (k.after schedule n).session.record = k.messages ∨
      ∃ m < n, (k.after schedule m).session.isClosing = false ∧
        (k.after schedule (m + 1)).session.isClosing = true ∧
        ∃ σ, (k.after schedule m).told (schedule m) = some σ ∧
          Cut (k.after schedule m).session σ := by
  induction n with
  | zero => simp [after, ho] at hc
  | succ n ih =>
      have hn := coherent_after h schedule n
      cases hclosed : (k.after schedule n).session.isClosing with
      | true =>
          have hkept := (handled_step_of_closing hn hclosed (schedule n)).2
          rcases ih hclosed with hall | ⟨m, hm, hcut⟩
          · exact .inl (hkept.trans hall)
          · exact .inr ⟨m, by omega, hcut⟩
      | false =>
          rcases cut_of_closes hn hclosed hc with hcut | hall
          · exact .inr ⟨n, by omega, hclosed, hc, hcut⟩
          · exact .inl (hall.trans (messages_after h schedule n))

/-- Until a session gets on it goes on waiting. -/
theorem advances_or_stays (h : k.session.Coherent) (schedule : Nat → Occasion) {n m : Nat}
    (hnm : n ≤ m) :
    (∃ j, (k.after schedule j).session.isClosing = true ∨
      (k.after schedule j).load < (k.after schedule n).load) ∨
      (k.after schedule n).Stays (k.after schedule m) := by
  induction hnm with
  | refl => exact .inr (.refl _)
  | @step m _ ih =>
      rcases ih with hj | hs
      · exact .inl hj
      rcases step_cases (coherent_after h schedule m) (schedule m) with hs' | hm
      · exact .inr (hs.trans hs')
      rcases hm.advances with hc | hl | ⟨hs', -⟩
      · exact .inl ⟨m + 1, .inl hc⟩
      · exact .inl ⟨m + 1, .inr (hs.load ▸ hl)⟩
      · exact .inr (hs.trans hs')

theorem closing_after (h : k.session.Coherent) (schedule : Nat → Occasion) {n m : Nat}
    (hnm : n ≤ m) (hc : (k.after schedule n).session.isClosing = true) :
    (k.after schedule m).session.isClosing = true := by
  induction hnm with
  | refl => exact hc
  | @step m _ ih =>
      exact (handled_step_of_closing (coherent_after h schedule m) ih (schedule m)).1

/-- A session that has ended waits for nothing. -/
theorem fair_of_closing (h : k.session.Coherent) {schedule : Nat → Occasion} {n : Nat}
    (hc : (k.after schedule n).session.isClosing = true) : Fair (k.after schedule) schedule := by
  intro i o
  refine ⟨max i n, Nat.le_max_left i n, fun ha => ?_⟩
  have hm := closing_after h schedule (Nat.le_max_right i n) hc
  unfold Awaits at ha
  split at ha <;> simp [isListening, heeds, hm] at ha

theorem done_of_fair (h : k.session.Coherent) {schedule : Nat → Occasion}
    (hf : Fair (k.after schedule) schedule) (n : Nat) :
    ∃ m, Record.handled (k.after schedule m).session.record = k.messages ∨
      (k.after schedule m).session.isClosing = true := by
  -- on the load: each message can begin an attempt, each attempt comes to an end
  induction hload : (k.after schedule n).load using Nat.strongRecOn generalizing n with
  | ind load ih =>
      subst hload
      cases hc : (k.after schedule n).session.isClosing with
      | true => exact ⟨n, .inr hc⟩
      | false =>
          rcases awaits_or_done hc with ⟨o, ha⟩ | hall
          · obtain ⟨m, hnm, ho⟩ := hf n o
            have hnext : ∃ j, (k.after schedule j).session.isClosing = true ∨
                (k.after schedule j).load < (k.after schedule n).load := by
              rcases advances_or_stays h schedule hnm with hj | hs
              · exact hj
              · have hm := hs.awaits ha
                have hadv := advances_of_awaits (coherent_after h schedule m) hm
                rw [← ho hm] at hadv
                exact ⟨m + 1, hs.load ▸ hadv⟩
            obtain ⟨j, hj | hj⟩ := hnext
            · exact ⟨j, .inr hj⟩
            · exact ih _ hj j rfl
          · exact ⟨n, .inl (hall.trans (messages_after h schedule n))⟩

end Socket

/-- On every schedule the messages that a session handles are the first ones on its socket, in
their order. It ends before it has handled them all only if it is cut short; and it either handles
them all or ends if nothing keeps it waiting for ever. -/
theorem messages_delivered {ρ : Type} [Remote ρ] (config : Config) (remote : ρ)
    (cached : Option Credentials) (env : Environment.Pairs) (frames : List (Option Frame))
    (schedule : Nat → Occasion) :
    let run := (Socket.mk (start config remote cached env) frames).after schedule
    (∀ n, Record.handled (run n).session.record <+: Frame.messages frames) ∧
    (∀ n, (run n).session.isClosing = true →
      Record.handled (run n).session.record = Frame.messages frames ∨
        ∃ m < n, (run m).session.isClosing = false ∧ (run (m + 1)).session.isClosing = true ∧
          ∃ σ, (run m).told (schedule m) = some σ ∧ Cut (run m).session σ) ∧
    (Socket.Fair run schedule →
      ∃ n, Record.handled (run n).session.record = Frame.messages frames ∨
        (run n).session.isClosing = true) := by
  intro run
  have h : (start config remote cached env).Coherent := coherent_start config remote cached env
  have hall : (Socket.mk (start config remote cached env) frames).messages =
      Frame.messages frames := by simp [Socket.messages, taken, start, Record.handled]
  refine ⟨fun n => ?_, fun n hc => ?_, fun hf => ?_⟩
  · have hn := Socket.messages_after (k := ⟨start config remote cached env, frames⟩) h schedule n
    rw [hall, Socket.messages, taken, List.append_assoc] at hn
    exact ⟨_, hn⟩
  · simpa [hall] using Socket.cut_after h rfl schedule n hc
  · simpa [hall] using Socket.done_of_fair h hf 0

def loginText : String :=
  "\x7b\"type\":\"auth\",\"payload\":\x7b\"username\":\"user\",\"host\":\"h\"," ++
    "\"password\":\"pw\"\x7d\x7d"

/-- A login and input right behind it, which has to wait until the connection is there. -/
def eagerFrames : List (Option Frame) := [some (.text loginText), some (.binary [1]), some .close]

def eagerSchedule (n : Nat) : Occasion :=
  [.read, .read, .other .settle, .other .resume].getD n .read

theorem messages_delivered_eager :
    let run := (Socket.mk (start Config.standard ({} : Script) none []) eagerFrames).after
      eagerSchedule
    (run 2).session.backlog = [.ok (.data [1])] ∧ (run 5).session.isClosing = true ∧
      Socket.Fair run eagerSchedule ∧
      (Record.handled (run 5).session.record = Frame.messages eagerFrames ∨
        ∃ m < 5, (run m).session.isClosing = false ∧ (run (m + 1)).session.isClosing = true ∧
          ∃ σ, (run m).told (eagerSchedule m) = some σ ∧ Cut (run m).session σ) ∧
      ∃ n, Record.handled (run n).session.record = Frame.messages eagerFrames ∨
        (run n).session.isClosing = true := by
  intro run
  have hc : (run 5).session.isClosing = true := by decide +kernel
  have hf : Socket.Fair run eagerSchedule :=
    Socket.fair_of_closing (coherent_start Config.standard ({} : Script) none []) hc
  obtain ⟨-, hcut, hdone⟩ :=
    messages_delivered Config.standard ({} : Script) none [] eagerFrames eagerSchedule
  exact ⟨by decide +kernel, hc, hf, hcut 5 hc, hdone hf⟩

end TerminalGateway.Http

import TerminalGateway.Proofs.Session.Coherence
import TerminalGateway.Proofs.Session.Line

/-!
A session asks its server side for things in the right order: what its phase lets it do is what the
line to the server, as its record tells of it, allows.
-/

namespace TerminalGateway.Session

open Line Record

variable {ρ : Type} {s t : Session ρ} {l : Line}

/-- The line that a session of this phase takes itself to have. -/
def line (s : Session ρ) : Line :=
  match s.phase with
  | .connected => .up
  | .streaming => .carrying
  | .authenticating => if s.attempt.isSome then .begun else .down
  | .idle | .closing | .closed => .down

structure Orderly (s : Session ρ) : Prop where
  leads : Leads s.record s.line
  parting : s.phase = .closed → ∃ before, s.record = before ++ farewell

theorem Open.notClosed (h : s.Open) : s.phase ≠ .closed := by
  intro hp
  simpa [isClosing, hp] using h.goesOn

namespace Orderly

/-- A session that goes on, from one whose record it continues. -/
theorem continued (h : Leads s.record l) (es : List Entry) (hr : t.record = s.record ++ es)
    (he : es.foldlM next? l = some t.line) (hp : t.phase ≠ .closed) : t.Orderly where
  leads := by
    rw [hr]
    exact h.append es he
  parting := fun hc => absurd hc hp

theorem note (h : s.Orderly) (ho : s.Open) {e : Entry} (he : s.line.next? e = some s.line) :
    (s.note e).Orderly :=
  continued h.leads [e] rfl (by rw [List.foldlM_cons, he]; rfl) ho.notClosed

variable [Remote ρ]

theorem ended (h : Leads t.record l) : t.ended.Orderly where
  leads := h.append farewell rfl
  parting := fun _ => ⟨t.record, rfl⟩

theorem broken (h : Leads t.record l) (f : Failure) : (t.broken f).Orderly := by
  unfold Session.broken
  split
  · exact ended (t := (t.keeping _).inviting) (h.append [.sent .reauth] rfl)
  · exact ended (t := t.failing _ _) (h.append [.sent (.sshError _)] rfl)

theorem rebuffed (h : Leads t.record l) (c : Credentials) (f : Failure) :
    (t.rebuffed c f).Orderly := by
  obtain ⟨_, _, _, -, hi, hr⟩ := t.exists_rebuffed c f
  rw [hr]
  rcases hi with rfl | rfl <;> exact ended (h.append _ rfl)

/-- Whatever connection there was is hung up. -/
theorem leads_parted (h : s.Orderly) (ha : s.attempt = none) : Leads s.parted.record .down := by
  have hl := h.leads
  unfold Session.parted
  split
  · exact hl.append [.called .hangUp (.ok ())] rfl
  · rename_i hp
    have hd : s.line = .down := by
      unfold line
      split <;> simp_all
    rwa [hd] at hl

theorem vets {c : Credentials} {found : Except String (List Net.Address)}
    (h : Leads s.record .down) (hp : s.phase = .authenticating) (hv : Vets s c found t) :
    t.Orderly := by
  have hvet : Leads (s.vetted c found).record .down := h.append [.vetted c found] rfl
  cases hv with
  | allowed _ =>
      refine continued hvet [.called (.connect c) (.ok ())] rfl ?_ ?_
      · simp [line, Session.connect, Session.note, vetted, hp]
        rfl
      · simp [Session.connect, Session.note, vetted, hp]
  | refused _ =>
      exact ended (t := (s.vetted c found).failing _ _) (hvet.append [.sent (.sshError _)] rfl)

theorem approaches {c : Credentials} (h : Leads s.record .down) (hp : s.phase = .authenticating)
    (ha : s.attempt = none) (hap : Approaches s c t) : t.Orderly := by
  cases hap with
  | unrestricted _ =>
      refine continued h [.called (.connect c) (.ok ())] rfl ?_ ?_
      · simp [line, Session.connect, Session.note, hp]
        rfl
      · simp [Session.connect, Session.note, hp]
  | literal _ _ hv => exact vets h hp hv
  | named _ _ => exact continued h [] (by simp) (by simp [line, hp, ha]) (by simp [hp])

theorem answers (h : s.Orderly) (ho : s.Open) (ha : s.attempt = none) {m : Inbound}
    (hm : Answers s m t) : t.Orderly := by
  have hl := h.leads
  have hup : s.phase = .connected → Leads s.record .up := fun hp => by
    simpa [line, hp] using hl
  have hcarrying : s.phase = .streaming → Leads s.record .carrying := fun hp => by
    simpa [line, hp] using hl
  have hparted := h.leads_parted ha
  cases hm with
  | objected _ => exact h.note ho rfl
  | ignored _ => exact h
  | unauthenticated _ =>
      exact ended (t := s.parted.failing _ _) (hparted.append [.sent (.sshError _)] rfl)
  | @authenticating r c _ _ hap =>
      have hpa : s.parted.attempt = none := by
        unfold parted
        split <;> exact ha
      exact approaches (s := s.parted.bound r c) hparted rfl hpa hap
  | shellOpened hp _ | execOpened hp _ =>
      exact continued (hup hp) [.called _ (.ok ())] rfl rfl (by simp [attach])
  | shellFailed hp _ | execFailed hp _ =>
      exact broken ((hup hp).append [.called _ (.error _)] rfl) _
  | @resized d remote _ =>
      exact continued hl [.called (.resize d) (.ok ())] rfl rfl ho.notClosed
  | resizeFailed _ => exact broken (hl.append [.called (.resize _) (.error _)] rfl) _
  | wrote hp _ | replayed _ _ hp _ =>
      have hline : s.line = .carrying := by simp [line, hp]
      exact continued (hcarrying hp) [.called (.write _) (.ok ())] rfl
        (congrArg some hline.symm) ho.notClosed
  | writeFailed hp _ =>
      exact broken ((hcarrying hp).append [.called (.write _) (.error _)] rfl) _
  | @replayFailed password _ f _ _ hp _ =>
      have hw := (hcarrying hp).append
        [.called (.write (s.replay password)) (.error f)] rfl
      exact ended (t := (s.did _ _ _).failing _ _) (hw.append [.sent (.sshError _)] rfl)
  | reauthed _ =>
      exact ended (t := { s with cached := none }.emit _)
        (hl.append [.sent .reauth] rfl)
  | forgot => exact ⟨hl, h.parting⟩
  | disconnected => exact ended hl

/-- What a session does about something that it takes off its stream. The entry for that may be the
end of the stream already. -/
theorem receives (h : s.Orderly) (ho : s.Open) (hp : s.phase = .streaming) {n : Nat}
    {e : Option StreamEvent} (hr : Receives (s.note (.received n e)) e t) : t.Orderly := by
  have hline : s.line = .carrying := by simp [line, hp]
  have hl : Leads s.record .carrying := hline ▸ h.leads
  have hspent : e = none ∨ e = some .closed →
      Leads (s.note (.received n e)).record .spent := by
    rintro (rfl | rfl) <;> exact hl.append [.received n _] rfl
  cases hr with
  | output | extended => exact (h.note ho rfl).note (ho.note _) rfl
  | exitStatus _ | exitSignal _ =>
      exact continued hl [.received n _] rfl (congrArg some hline.symm) ho.notClosed
  | execClosed he _ _ =>
      exact continued (hspent he) [.sent _, .called .closeStream (.ok ())] rfl rfl
        (by simp [released])
  | shellSignalled he _ _ _ => exact broken (hspent he) _
  | shellClosed he _ _ _ => exact ended (hspent he)
  | failed => exact broken (hl.append [.received n _] rfl) _

theorem moves (h : s.Orderly) (hc : s.Coherent) (ho : s.Open) {σ : Stimulus}
    (hm : Moves s σ t) : t.Orderly := by
  have hbegun : ∀ {a : Attempt}, s.attempt = some a →
      s.phase = .authenticating ∧ s.line = .begun := fun ha => by
    have hp := hc.waiting.mpr (.inr (by simp [ha]))
    exact ⟨hp, by simp [line, hp, ha]⟩
  have hstreaming : ∀ {n : Nat}, s.receiver = some n → s.phase = .streaming := fun hn =>
    hc.receiver.mp (by simp [hn])
  cases hm with
  | @answered m _ hi ha =>
      obtain ⟨-, -, hatt, -⟩ := isListening_iff.mp hi
      exact answers (h.note ho rfl) (ho.note _) hatt ha
  | @resumed m rest _ _ ha _ hans =>
      have hb : ({ s with backlog := rest } : Session ρ).Orderly := ⟨h.leads, h.parting⟩
      have hob : ({ s with backlog := rest } : Session ρ).Open :=
        ⟨ho.goesOn, ho.faultless, ho.registered⟩
      exact answers (hb.note hob rfl) (hob.note _) ha hans
  | queued _ _ => exact ⟨h.leads, h.parting⟩
  | @abandoned c _ ha =>
      obtain ⟨hp, hline⟩ := hbegun ha
      exact continued (hline ▸ h.leads) [] (by simp) (by simp [line, hp]) ho.notClosed
  | prompted _ _ | counted _ => exact h.note ho rfl
  | @connected c _ _ ha _ =>
      obtain ⟨-, hline⟩ := hbegun ha
      exact continued (hline ▸ h.leads)
        (.settled (.ok ()) :: welcome s.permissions c.label) (by simp [welcomed, settled]) rfl
        (by simp [welcomed])
  | rebuffed _ ha _ =>
      obtain ⟨-, hline⟩ := hbegun ha
      exact rebuffed (Leads.append (hline ▸ h.leads) [.settled (.error _)] rfl) _ _
  | @givenUp c remote outcome _ ha _ =>
      obtain ⟨-, hline⟩ := hbegun ha
      have hset : ∃ l, Leads (s.settled remote outcome).record l := by
        obtain f | ⟨⟩ := outcome
        · exact ⟨.failed, Leads.append (hline ▸ h.leads) [.settled (.error f)] rfl⟩
        · exact ⟨.up, Leads.append (hline ▸ h.leads) [.settled (.ok ())] rfl⟩
      obtain ⟨l, hset⟩ := hset
      exact ended hset
  | resolved hl hv =>
      have hu := hc.underway_of_lookup ho hl
      have hline : s.line = .down := by simp [line, hu.phase, hu.attempt]
      exact vets (hline ▸ h.leads) hu.phase hv
  | departed _ => exact ended h.leads
  | received _ hn hr => exact receives h ho (hstreaming hn) hr
  | expired hi hd =>
      have hs : s.stream.isSome = true := by
        cases hs : s.stream with
        | none => simp [isDue, hs] at hd
        | some _ => rfl
      have hline : s.line = .carrying := by simp [line, hc.stream.mp hs]
      exact continued (hline ▸ h.leads)
        [.expired, .called .closeStream (.ok ()), .sent (.execExit none none true)] rfl rfl
        (by simp [released])

end Orderly

theorem orderly_run [Remote ρ] (config : Config) (remote : ρ) (cached : Option Credentials)
    (env : Environment.Pairs) (σs : List Stimulus) :
    ((start config remote cached env).run σs).Orderly := by
  refine (coherent_start config remote cached env).run_induction ⟨rfl, by simp [start]⟩ ?_ ?_
  · intro t h
    exact ⟨h.leads, h.parting⟩
  · intro t σ t' _ hc ho h hm
    exact h.moves hc ho hm

/-- In every run a connection is begun only after the one before it was hung up; a stream is asked
for only on a connection that was made and not hung up since, after all earlier streams on it were
closed; something is written only to a stream that was opened and did not end; and behind the
farewell of a session nothing is called. -/
theorem calls_in_order [Remote ρ] (config : Config) (remote : ρ) (cached : Option Credentials)
    (env : Environment.Pairs) (σs : List Stimulus) :
    let s := (start config remote cached env).run σs
    (∀ past e rest, s.record = past ++ e :: rest → e.connects = true →
      Followed Entry.connects (.called .hangUp (.ok ())) past) ∧
    (∀ past e rest, s.record = past ++ e :: rest → e.asksStream = true →
      ∃ since, Made past since ∧
        Followed Entry.opensStream (.called .closeStream (.ok ())) since) ∧
    (∀ past e rest, s.record = past ++ e :: rest → e.writes = true → HoldsStream past) ∧
    (s.phase = .closed → ∃ before, s.record = before ++ farewell) := by
  intro s
  have h : s.Orderly := orderly_run config remote cached env σs
  have hstands : ∀ {past e rest}, s.record = past ++ e :: rest →
      ∃ l l' : Line, l.next? e = some l' ∧ l.Tells past := by
    intro past e rest hr
    have hl := h.leads
    rw [hr] at hl
    obtain ⟨l, l', hp, hn⟩ := hl.before
    exact ⟨l, l', hn, hp.tells⟩
  refine ⟨?_, ?_, ?_, h.parting⟩
  · intro past e rest hr he
    obtain ⟨l, l', hn, ht⟩ := hstands hr
    obtain rfl := eq_down_of_connects hn he
    exact ht
  · intro past e rest hr he
    obtain ⟨l, l', hn, ht⟩ := hstands hr
    obtain rfl := eq_up_of_asksStream hn he
    exact ht
  · intro past e rest hr he
    obtain ⟨l, l', hn, ht⟩ := hstands hr
    obtain rfl := eq_carrying_of_writes hn he
    exact ht.2

end TerminalGateway.Session

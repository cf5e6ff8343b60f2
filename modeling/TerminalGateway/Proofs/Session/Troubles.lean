import TerminalGateway.Proofs.Config
import TerminalGateway.Proofs.Session.Coherence
import TerminalGateway.Session.Scripted

/-!
The failures that a session meets. Each is the first one and ends the session; the client is told of
it in one event, behind which at most an invitation to log in again follows.
-/

namespace TerminalGateway

inductive Trouble
  /-- The connection was not made. -/
  | connection (c : Credentials) (f : Failure)
  /-- A stream failed, or an operation of the server side did. -/
  | stream (target : String × Nat) (f : Failure)
  | refusal (r : Net.TargetRefusal)
  /-- There is no secret to log in with. -/
  | noLogin
  /-- The password could not be typed. -/
  | replay (f : Failure)
  deriving DecidableEq

namespace Trouble

def message : Trouble → String
  | connection c f => f.userMessage c.host c.port
  | stream target f => f.userMessage target.1 target.2
  | refusal r => r.text
  | noLogin => Session.refreshAndRetry
  | replay f => "Failed to replay credentials: " ++ f.message

/-- All that the client is told of a failure, with an invitation to log in again if it may have
one. -/
def report (mayInvite : Bool) : Trouble → List ServerEvent
  | connection c f =>
      .authResult false (some (connection c f).message) ::
        if f.kind = .authentication ∧ mayInvite then [.reauth] else []
  | stream target f =>
      if f.level = some .clientAuthentication ∧ mayInvite then [.reauth]
      else [.sshError (stream target f).message]
  | x => [.sshError x.message]

theorem invites {x : Trouble} {may : Bool} (h : .reauth ∈ x.report may) :
    may = true ∧ ∃ first, x.report may = first ++ [.reauth] ∧ .reauth ∉ first := by
  cases x with
  | connection c f =>
      simp only [report, List.mem_cons, reduceCtorEq, false_or] at h ⊢
      split at h
      · rename_i hi
        exact ⟨hi.2, [_], by rw [if_pos hi]; rfl, by simp⟩
      · simp at h
  | stream target f =>
      simp only [report] at h ⊢
      split at h
      · rename_i hi
        exact ⟨hi.2, [], by rw [if_pos hi]; rfl, by simp⟩
      · simp at h
  | refusal _ | noLogin | replay _ => simp [report] at h

end Trouble

def Outcome.failure? : Outcome → Option Failure
  | .ok () => none
  | .error f => some f

namespace Entry

/-- Neither a word to the client nor a part of the farewell that is said once. -/
def isMute : Entry → Bool
  | .sent _ | .socketClosed | .left => false
  | _ => true

/-- What stands at the end of a record only. -/
def isLast : Entry → Bool
  | .socketClosed | .left | .sent .reauth | .sent (.authResult false _) => true
  | _ => false

theorem isLast_of_isMute {e : Entry} (h : e.isMute = true) : e.isLast = false := by
  unfold isLast
  split <;> simp_all [isMute]

end Entry

@[simp] theorem Record.events_farewell : Record.events Session.farewell = [] := rfl

theorem Record.events_eq_nil {es : List Entry} (h : ∀ e ∈ es, e.isMute = true) :
    Record.events es = [] := by
  refine List.filterMap_eq_nil_iff.mpr fun e he => ?_
  cases e with
  | sent _ => simpa [Entry.isMute] using h _ he
  | _ => rfl

namespace Session

variable {ρ : Type} [Remote ρ] {s t u : Session ρ}

/-! ### What a session meets -/

def refused? (s : Session ρ) (c : Credentials) (found : Except String (List Net.Address)) :
    Option Trouble :=
  match Net.judge s.config.ssh.allowedSubnets c.host found with
  | .ok () => none
  | .error r => some (.refusal r)

/-- What goes wrong when a message is handled. -/
def troubleIn? (s : Session ρ) : Inbound → Option Trouble
  | .ok (.auth r) =>
      match s.resolve? r.credentials with
      | none => some .noLogin
      | some c =>
          if s.config.ssh.allowedSubnets = [] then none
          else (Net.literal? c.host).bind fun a => s.refused? c (.ok [a])
  | .ok (.terminal r) =>
      if s.phase = .connected then
        (Remote.shell s.remote ⟨(s.fitted r).term, r.dimensions⟩ (s.streamEnv [])).2.failure?.map
          (.stream s.target)
      else none
  | .ok (.exec r) =>
      if s.phase = .connected then
        (Remote.exec s.remote r.command (s.execTerminal r) (s.streamEnv r.env)).2.failure?.map
          (.stream s.target)
      else none
  | .ok (.resize d) => (Remote.resize s.remote d).2.failure?.map (.stream s.target)
  | .ok (.data bytes) =>
      if s.phase = .streaming then
        (Remote.write s.remote bytes).2.failure?.map (.stream s.target)
      else none
  | .ok (.control .replayCredentials) =>
      if s.permissions.allowReplay ∧ s.phase = .streaming then
        s.replayable?.bind fun password =>
          (Remote.write s.remote (s.replay password)).2.failure?.map .replay
      else none
  | _ => none

/-- What goes wrong when something is taken off the stream. -/
def troubleOn? (s : Session ρ) : Option StreamEvent → Option Trouble
  | some (.failed f) => some (.stream s.target f)
  | some .closed | none =>
      match s.stream with
      | some ⟨.shell, _, some name⟩ =>
          some (.stream s.target (.stream ("Shell terminated by signal " ++ name)))
      | _ => none
  | _ => none

def troubleAt? (s : Session ρ) : Stimulus → Option Trouble
  | .message m => if s.attempt.isSome then none else s.troubleIn? m
  | .resume => s.backlog.head?.bind s.troubleIn?
  | .resolved found => s.lookup.bind fun c => s.refused? c found
  | .settle =>
      s.attempt.bind fun a =>
        if a.abandoned then none
        else (Remote.settle s.remote).2.failure?.map (.connection a.credentials)
  | .stream e => s.troubleOn? e
  | _ => none

/-- The failure that a session meets at a stimulus. -/
def trouble? (s : Session ρ) (σ : Stimulus) : Option Trouble :=
  if s.heeds σ then s.troubleAt? σ else none

theorem troubleIn?_of_objection {m : Inbound} {text : String} (h : s.objection? m = some text) :
    s.troubleIn? m = none := by
  unfold objection? at h
  unfold troubleIn?
  split at h <;> simp_all
  intro hr hp password hw
  simp [hr, hp, hw] at h

theorem troubleIn?_of_ignores {m : Inbound} (h : s.ignores m = true) : s.troubleIn? m = none := by
  unfold ignores at h
  split at h <;> simp_all [troubleIn?]

/-! ### What comes of it -/

omit [Remote ρ] in
/-- Within a step a session did something of which its client heard nothing. -/
structure Amid (s u : Session ρ) : Prop where
  record : ∃ es, u.record = s.record ++ es ∧ ∀ e ∈ es, e.isMute = true
  firstError : u.firstError = s.firstError
  permissions : u.permissions = s.permissions
  uninvited : u.reauthOffered = false

omit [Remote ρ] in
/-- How a session fares that met a failure, or met none. -/
inductive Fares (s : Session ρ) : Option Trouble → Session ρ → Prop
  | goesOn {t : Session ρ} {es : List Entry} (hr : t.record = s.record ++ es)
      (he : ∀ e ∈ es, e.isLast = false) (hc : t.isClosing = false)
      (hf : t.firstError = s.firstError) (hp : t.permissions = s.permissions)
      (hi : t.reauthOffered = false) : Fares s none t
  | leaves {t : Session ρ} {es : List Entry} {told : List ServerEvent}
      (hr : t.record = s.record ++ es ++ told.map .sent ++ farewell)
      (he : ∀ e ∈ es, e.isMute = true) (hc : t.phase = .closed)
      (hf : t.firstError = s.firstError) (hp : t.permissions = s.permissions)
      (ht : told = [] ∨ told = [.reauth] ∧ s.permissions.allowReauth = true) : Fares s none t
  | fails {t : Session ρ} {x : Trouble} {es : List Entry}
      (hr : t.record =
        s.record ++ es ++ (x.report s.permissions.allowReauth).map .sent ++ farewell)
      (he : ∀ e ∈ es, e.isMute = true) (hc : t.phase = .closed)
      (hf : t.firstError = some x.message) (hp : t.permissions = s.permissions) :
      Fares s (some x) t

namespace Amid

omit [Remote ρ] in
theorem refl (h : s.reauthOffered = false) : Amid s s :=
  ⟨⟨[], by simp, by simp⟩, rfl, rfl, h⟩

omit [Remote ρ] in
theorem append (h : Amid s u) {es : List Entry} (hr : t.record = u.record ++ es)
    (he : es.all Entry.isMute = true) (hf : t.firstError = u.firstError)
    (hp : t.permissions = u.permissions) (hi : t.reauthOffered = u.reauthOffered) : Amid s t := by
  obtain ⟨past, hpast, hmute⟩ := h.record
  refine ⟨⟨past ++ es, by rw [hr, hpast, List.append_assoc], ?_⟩, hf.trans h.firstError,
    hp.trans h.permissions, hi.trans h.uninvited⟩
  intro e hm
  rcases List.mem_append.mp hm with hm | hm
  · exact hmute e hm
  · exact List.all_eq_true.mp he e hm

omit [Remote ρ] in
theorem goesOn (h : Amid s u) {es : List Entry} (hr : t.record = u.record ++ es)
    (he : es.all (!·.isLast) = true) (hc : t.isClosing = false)
    (hf : t.firstError = u.firstError) (hp : t.permissions = u.permissions)
    (hi : t.reauthOffered = u.reauthOffered) : Fares s none t := by
  obtain ⟨past, hpast, hmute⟩ := h.record
  have hall : t.record = s.record ++ (past ++ es) := by rw [hr, hpast, List.append_assoc]
  refine .goesOn hall ?_ hc (hf.trans h.firstError) (hp.trans h.permissions)
    (hi.trans h.uninvited)
  intro e hm
  rcases List.mem_append.mp hm with hm | hm
  · exact Entry.isLast_of_isMute (hmute e hm)
  · simpa using List.all_eq_true.mp he e hm

theorem parted (h : Amid s u) : Amid s u.parted := by
  unfold Session.parted
  split
  · exact h.append rfl rfl rfl rfl rfl
  · exact h

theorem ended (h : Amid s u) : Fares s none u.ended := by
  obtain ⟨es, hr, he⟩ := h.record
  have hend : u.ended.record = s.record ++ es ++ ([] : List ServerEvent).map .sent ++ farewell := by
    simp [Session.ended, hr]
  exact .leaves hend he rfl h.firstError h.permissions (.inl rfl)

theorem failing (h : Amid s u) {x : Trouble} {event : ServerEvent}
    (hx : x.report s.permissions.allowReauth = [event]) :
    Fares s (some x) (u.failing x.message event).ended := by
  obtain ⟨es, hr, he⟩ := h.record
  exact .fails (by simp [Session.ended, Session.failing, hr, hx]) he rfl rfl h.permissions

theorem inviting (h : Amid s u) {x : Trouble} {event : ServerEvent}
    (hx : x.report s.permissions.allowReauth = [event, .reauth]) :
    Fares s (some x) (u.failing x.message event).inviting.ended := by
  obtain ⟨es, hr, he⟩ := h.record
  exact .fails (by simp [Session.ended, Session.inviting, Session.failing, hr, hx]) he rfl rfl
    h.permissions

theorem broken (h : Amid s u) (f : Failure) :
    Fares s (some (.stream u.target f)) (u.broken f) := by
  obtain ⟨es, hr, he⟩ := h.record
  have hm : u.mayInvite = s.permissions.allowReauth := by
    simp [mayInvite, h.uninvited, h.permissions]
  unfold Session.broken
  simp only [hm]
  split
  · rename_i hi
    refine .fails ?_ he rfl rfl h.permissions
    simp [Session.ended, Session.inviting, Session.keeping, hr, Trouble.report, hi]
  · rename_i hi
    exact h.failing (x := .stream u.target f) (by simp only [Trouble.report, if_neg hi]; rfl)

theorem rebuffed (h : Amid s u) (c : Credentials) (f : Failure) :
    Fares s (some (.connection c f)) (u.rebuffed c f) := by
  -- whether the kept credentials are given up makes no difference to what is told
  have hv : Amid s (if f.kind.clearsCredentials then { u with cached := none } else u) := by
    split
    · exact h.append (List.append_nil _).symm rfl rfl rfl rfl
    · exact h
  unfold Session.rebuffed
  generalize (if f.kind.clearsCredentials then { u with cached := none } else u) = v at hv ⊢
  have hm : ∀ message event, (v.failing message event).mayInvite = s.permissions.allowReauth := by
    intro message event
    simp [mayInvite, Session.failing, hv.uninvited, hv.permissions]
  dsimp only
  simp only [hm]
  split
  · rename_i hi
    exact hv.inviting (x := .connection c f) (by simp only [Trouble.report, if_pos hi]; rfl)
  · rename_i hi
    exact hv.failing (x := .connection c f) (by simp only [Trouble.report, if_neg hi]; rfl)

theorem vets (h : Amid s u) (hc : u.isClosing = false) {c : Credentials}
    {found : Except String (List Net.Address)} (hv : Vets u c found t) :
    Fares s (u.refused? c found) t := by
  have hvet : Amid s (u.vetted c found) := h.append rfl rfl rfl rfl rfl
  cases hv with
  | allowed hj =>
      simp only [refused?, hj]
      exact hvet.goesOn rfl rfl hc rfl rfl rfl
  | refused hj =>
      simp only [refused?, hj]
      exact hvet.failing (x := .refusal _) rfl

theorem answers (h : Amid s u) (hc : u.isClosing = false) {m : Inbound} (hm : Answers u m t) :
    Fares s (u.troubleIn? m) t := by
  cases hm with
  | objected ho =>
      rw [troubleIn?_of_objection ho]
      exact h.goesOn rfl rfl hc rfl rfl rfl
  | ignored hi =>
      rw [troubleIn?_of_ignores hi]
      exact h.goesOn (List.append_nil _).symm rfl hc rfl rfl rfl
  | unauthenticated hr =>
      simp only [troubleIn?, hr]
      exact h.parted.failing (x := .noLogin) rfl
  | @authenticating r c _ hr ha =>
      have hb : Amid s (u.parted.bound r c) :=
        h.parted.append (List.append_nil _).symm rfl rfl rfl rfl
      have hn : (u.parted.bound r c).config = u.config := by
        unfold Session.bound Session.parted
        split <;> rfl
      have hj : ∀ found, (u.parted.bound r c).refused? c found = u.refused? c found := by
        intro found
        simp only [refused?, hn]
      cases ha with
      | unrestricted hnets =>
          rw [hn] at hnets
          simp only [troubleIn?, hr, hnets, if_true]
          exact hb.goesOn rfl rfl rfl rfl rfl rfl
      | @literal a _ hnets hl hv =>
          rw [hn] at hnets
          simp only [troubleIn?, hr, hnets, if_false, hl, Option.bind_some, ← hj]
          exact hb.vets rfl hv
      | named hnets hl =>
          rw [hn] at hnets
          simp only [troubleIn?, hr, hnets, if_false, hl, Option.bind_none]
          exact hb.goesOn (List.append_nil _).symm rfl rfl rfl rfl rfl
  | shellOpened hp hx =>
      simp only [troubleIn?, hp, if_true, hx]
      exact h.goesOn rfl rfl rfl rfl rfl rfl
  | execOpened hp hx =>
      simp only [troubleIn?, hp, if_true, hx]
      exact h.goesOn rfl rfl rfl rfl rfl rfl
  | @shellFailed r remote f hp hx =>
      simp only [troubleIn?, hp, if_true, hx]
      exact (h.append (t := (u.fitted r).did _ remote _) rfl rfl rfl rfl rfl).broken f
  | @execFailed r remote f hp hx =>
      simp only [troubleIn?, hp, if_true, hx]
      exact (h.append (t := u.did _ remote _) rfl rfl rfl rfl rfl).broken f
  | resized hx =>
      simp only [troubleIn?, hx]
      exact h.goesOn rfl rfl hc rfl rfl rfl
  | @resizeFailed d remote f hx =>
      simp only [troubleIn?, hx]
      exact (h.append (t := { u with dimensions := d }.did _ remote _) rfl rfl rfl rfl rfl).broken f
  | wrote hp hx =>
      simp only [troubleIn?, hp, if_true, hx]
      exact h.goesOn rfl rfl hc rfl rfl rfl
  | @writeFailed bytes remote f hp hx =>
      simp only [troubleIn?, hp, if_true, hx]
      exact (h.append (t := u.did _ remote _) rfl rfl rfl rfl rfl).broken f
  | replayed hr hw hp hx =>
      simp only [troubleIn?, hr, hp, and_self, if_true, hw, Option.bind_some, hx]
      exact h.goesOn rfl rfl hc rfl rfl rfl
  | @replayFailed password remote f hr hw hp hx =>
      simp only [troubleIn?, hr, hp, and_self, if_true, hw, Option.bind_some, hx]
      exact (h.append (t := u.did _ remote _) rfl rfl rfl rfl rfl).failing (x := .replay f) rfl
  | reauthed hr =>
      obtain ⟨es, hrec, he⟩ := h.record
      have hend : ({ u with cached := none }.emit .reauth).ended.record =
          s.record ++ es ++ [.reauth].map .sent ++ farewell := by
        simp [Session.ended, hrec]
      exact .leaves hend he rfl h.firstError h.permissions (.inr ⟨rfl, h.permissions ▸ hr⟩)
  | forgot => exact h.goesOn (List.append_nil _).symm rfl hc rfl rfl rfl
  | disconnected => exact h.ended

theorem receives (h : Amid s u) (hc : u.isClosing = false) {e : Option StreamEvent}
    (hr : Receives u e t) : Fares s (u.troubleOn? e) t := by
  cases hr with
  | output | extended => exact h.goesOn rfl rfl hc rfl rfl rfl
  | exitStatus _ | exitSignal _ => exact h.goesOn (List.append_nil _).symm rfl hc rfl rfl rfl
  | @execClosed e st _ he hs hk =>
      obtain ⟨_, code, signal⟩ := st
      obtain rfl := hk
      have hx : u.troubleOn? e = none := by rcases he with rfl | rfl <;> simp [troubleOn?, hs]
      rw [hx]
      exact h.goesOn rfl rfl rfl rfl rfl rfl
  | @shellSignalled e st name he hs hk hn =>
      obtain ⟨_, code, signal⟩ := st
      obtain rfl := hk
      obtain rfl := hn
      have hx : u.troubleOn? e =
          some (.stream u.target (.stream ("Shell terminated by signal " ++ name))) := by
        rcases he with rfl | rfl <;> simp [troubleOn?, hs]
      rw [hx]
      exact h.broken _
  | @shellClosed e st he hs hk hn =>
      obtain ⟨_, code, signal⟩ := st
      obtain rfl := hk
      obtain rfl := hn
      have hx : u.troubleOn? e = none := by rcases he with rfl | rfl <;> simp [troubleOn?, hs]
      rw [hx]
      exact h.ended
  | failed => exact h.broken _

end Amid

theorem Moves.heeds {σ : Stimulus} (h : Moves s σ t) (ho : s.Open) : s.heeds σ = true := by
  have hc := ho.goesOn
  cases h with
  | answered hi _ | departed hi =>
      obtain ⟨-, hl, ha, hb⟩ := isListening_iff.mp hi
      simp [Session.heeds, isHearing, hc, hl, ha, hb]
  | resumed hl ha hb _ => simp [Session.heeds, hc, hl, ha, hb]
  | queued hl ha | abandoned hl ha => simp [Session.heeds, isHearing, hc, hl, ha]
  | prompted hl ha | connected hl ha _ | rebuffed hl ha _ | givenUp hl ha _ =>
      simp [Session.heeds, hc, hl, ha]
  | resolved hl _ => simp [Session.heeds, hc, hl]
  | received hi hr _ => simp [Session.heeds, hi, hr]
  | counted hi => exact hi
  | expired hi hd => simp [Session.heeds, hi, hd]

theorem Moves.fares {σ : Stimulus} (h : Moves s σ t) (ho : s.Open)
    (hi : s.reauthOffered = false) : Fares s (s.trouble? σ) t := by
  have hs : Amid s s := .refl hi
  have hc := ho.goesOn
  rw [trouble?, h.heeds ho, if_pos rfl]
  cases h with
  | @answered m _ hl ha =>
      obtain ⟨-, -, hatt, -⟩ := isListening_iff.mp hl
      have hn : Amid s (s.note (.handled m)) := hs.append rfl rfl rfl rfl rfl
      simp only [troubleAt?, hatt]
      exact hn.answers hc ha
  | @resumed m rest _ _ _ hb ha =>
      have hn : Amid s ({ s with backlog := rest }.note (.handled m)) :=
        hs.append rfl rfl rfl rfl rfl
      simp only [troubleAt?, hb]
      exact hn.answers hc ha
  | queued _ ha =>
      simp only [troubleAt?, ha]
      exact hs.goesOn (List.append_nil _).symm rfl hc rfl rfl rfl
  | abandoned _ _ => exact hs.goesOn (List.append_nil _).symm rfl hc rfl rfl rfl
  | prompted _ _ | counted _ => exact hs.goesOn rfl rfl hc rfl rfl rfl
  | @connected c remote _ ha hx =>
      simp only [troubleAt?, ha, hx]
      have hset : Amid s (s.settled remote (.ok ())) := hs.append rfl rfl rfl rfl rfl
      exact hset.goesOn rfl rfl rfl rfl rfl rfl
  | @rebuffed c remote f _ ha hx =>
      simp only [troubleAt?, ha, hx]
      exact (hs.append (t := s.settled remote (.error f)) rfl rfl rfl rfl rfl).rebuffed c f
  | @givenUp c remote outcome _ ha _ =>
      simp only [troubleAt?, ha]
      exact (hs.append (t := s.settled remote outcome) rfl rfl rfl rfl rfl).ended
  | resolved hl hv =>
      simp only [troubleAt?, hl]
      exact hs.vets hc hv
  | departed _ => exact hs.ended
  | @received n e _ _ _ hr =>
      have hn : Amid s (s.note (.received n e)) := hs.append rfl rfl rfl rfl rfl
      exact hn.receives hc hr
  | expired _ _ => exact hs.goesOn rfl rfl rfl rfl rfl rfl

/-! ### Runs -/

omit [Remote ρ] in
/-- How a session stands that met these failures. -/
inductive Stands (mayInvite : Bool) (s : Session ρ) : List Trouble → Prop
  | goesOn (hc : s.isClosing = false) (hp : s.permissions.allowReauth = mayInvite)
      (hi : s.reauthOffered = false) (he : ∀ e ∈ s.record, e.isLast = false) :
      Stands mayInvite s []
  | left {before : List Entry} {told : List ServerEvent} (hc : s.phase = .closed)
      (hr : s.record = before ++ told.map .sent ++ farewell) (he : ∀ e ∈ before, e.isLast = false)
      (hf : s.firstError = none) (ht : told = [] ∨ told = [.reauth] ∧ mayInvite = true) :
      Stands mayInvite s []
  | failed {before : List Entry} {x : Trouble} (hc : s.phase = .closed)
      (hr : s.record = before ++ (x.report mayInvite).map .sent ++ farewell)
      (he : ∀ e ∈ before, e.isLast = false) (hf : s.firstError = some x.message) :
      Stands mayInvite s [x]

/-- The failures that a session meets, one after another. -/
def troubles (s : Session ρ) : List Stimulus → List Trouble
  | [] => []
  | σ :: σs => (s.trouble? σ).toList ++ (s.step σ).troubles σs

theorem trouble?_of_isClosing (hc : s.isClosing = true) (σ : Stimulus) : s.trouble? σ = none := by
  by_cases hσ : σ = .elapse
  · rw [hσ]
    rfl
  · simp [trouble?, heeds_of_isClosing hc hσ]

theorem step_closing (hc : s.isClosing = true) (σ : Stimulus) :
    ∃ n, s.step σ = { s with clock := n } := by
  by_cases hσ : σ = .elapse
  · exact ⟨_, hσ ▸ step_elapse s⟩
  · exact ⟨s.clock, step_of_isClosing hc hσ⟩

/-- Only time passes for a session that has ended. -/
theorem run_closing (hc : s.isClosing = true) (σs : List Stimulus) :
    ∃ n, s.run σs = { s with clock := n } := by
  refine run_induction (P := fun t => ∃ n, t = { s with clock := n }) ⟨s.clock, rfl⟩ ?_
  rintro t σ - ⟨n, rfl⟩
  exact step_closing (s := { s with clock := n }) hc σ

theorem Coherent.fares (h : s.Coherent) (hc : s.isClosing = false)
    (hi : s.reauthOffered = false) (σ : Stimulus) : Fares s (s.trouble? σ) (s.step σ) := by
  have hr : s.receiver.isSome = true → s.stream.isSome = true := fun hr =>
    h.stream.mpr (h.receiver.mp hr)
  by_cases hσ : σ = .elapse
  · subst hσ
    rw [step_elapse]
    exact .goesOn (List.append_nil _).symm (by simp) hc rfl rfl hi
  rcases (h.isOpen hc).steps hr hσ with ⟨hn, hs⟩ | hm
  · rw [hs, trouble?, hn]
    exact .goesOn (List.append_nil _).symm (by simp) hc rfl rfl hi
  · exact hm.fares (h.isOpen hc) hi

omit [Remote ρ] in
theorem isClosing_of_closed (h : s.phase = .closed) : s.isClosing = true := by
  simp [isClosing, h]

namespace Stands

variable {may : Bool} {xs : List Trouble}

omit [Remote ρ] in
theorem tick (h : Stands may s xs) (n : Nat) : Stands may { s with clock := n } xs := by
  cases h with
  | goesOn hc hp hi he => exact .goesOn hc hp hi he
  | left hc hr he hf ht => exact .left hc hr he hf ht
  | failed hc hr he hf => exact .failed hc hr he hf

omit [Remote ρ] in
theorem fares {x : Option Trouble} (hp : s.permissions.allowReauth = may)
    (he : ∀ e ∈ s.record, e.isLast = false) (hn : s.firstError = none) (h : Fares s x t) :
    Stands may t x.toList := by
  have hmute : ∀ {es : List Entry}, (∀ e ∈ es, e.isMute = true) →
      ∀ e ∈ s.record ++ es, e.isLast = false := by
    intro es hes e hm
    rcases List.mem_append.mp hm with hm | hm
    · exact he e hm
    · exact Entry.isLast_of_isMute (hes e hm)
  cases h with
  | goesOn hr hes hc _ hpt hi =>
      refine .goesOn hc (hpt ▸ hp) hi fun e hm => ?_
      rw [hr, List.mem_append] at hm
      exact hm.elim (he e) (hes e)
  | leaves hr hes hc hf _ ht => exact .left hc hr (hmute hes) (hf.trans hn) (hp ▸ ht)
  | fails hr hes hc hf _ => exact .failed hc (hp ▸ hr) (hmute hes) hf

theorem step (h : Stands may s xs) (hs : s.Coherent) (σ : Stimulus) :
    Stands may (s.step σ) (xs ++ (s.trouble? σ).toList) := by
  cases hc : s.isClosing with
  | true =>
      obtain ⟨n, hn⟩ := step_closing hc σ
      simpa [trouble?_of_isClosing hc, hn] using h.tick n
  | false =>
      cases h with
      | left hp _ _ _ _ | failed hp _ _ _ => simp [isClosing, hp] at hc
      | goesOn _ hp hi he => exact fares hp he (hs.isOpen hc).faultless (hs.fares hc hi σ)

theorem run (h : Stands may s xs) (hs : s.Coherent) (σs : List Stimulus) :
    Stands may (s.run σs) (xs ++ s.troubles σs) := by
  induction σs generalizing s xs with
  | nil => simpa [troubles, Session.run] using h
  | cons σ σs ih =>
      rw [troubles, ← List.append_assoc]
      exact ih (h.step hs σ) (hs.step σ)

end Stands

omit [Remote ρ] in
theorem stands_start (config : Config) (remote : ρ) (cached : Option Credentials)
    (env : Environment.Pairs) :
    Stands config.permissions.allowReauth (start config remote cached env) [] :=
  .goesOn rfl rfl rfl (by simp [start])

omit [Remote ρ] in
/-- An invitation to log in again is the last word of a session. -/
theorem Stands.invites {may : Bool} {xs : List Trouble} (h : Stands may s xs)
    (hm : .reauth ∈ Record.events s.record) :
    may = true ∧ ∃ past, Record.events s.record = past ++ [.reauth] ∧ .reauth ∉ past := by
  have hnot : ∀ {es : List Entry}, (∀ e ∈ es, e.isLast = false) → .reauth ∉ Record.events es := by
    intro es he hes
    simpa [Entry.isLast] using he _ (Record.mem_events.mp hes)
  cases h with
  | goesOn _ _ _ he => exact absurd hm (hnot he)
  | @left before told _ hr he _ ht =>
      have hev : Record.events s.record = Record.events before ++ told := by simp [hr]
      rcases ht with rfl | ⟨rfl, hmay⟩
      · rw [hev, List.append_nil] at hm
        exact absurd hm (hnot he)
      · exact ⟨hmay, _, hev, hnot he⟩
  | @failed before x _ hr he _ =>
      have hev : Record.events s.record = Record.events before ++ x.report may := by simp [hr]
      rw [hev, List.mem_append] at hm
      obtain ⟨hmay, first, hx, hf⟩ := Trouble.invites (hm.resolve_left (hnot he))
      exact ⟨hmay, Record.events before ++ first, by rw [hev, hx, List.append_assoc],
        by simp [hnot he, hf]⟩

omit [Remote ρ] in
theorem Stands.length_le {may : Bool} {xs : List Trouble} (h : Stands may s xs) :
    xs.length ≤ 1 := by
  cases h with
  | goesOn _ _ _ _ | left _ _ _ _ _ | failed _ _ _ _ => simp

omit [Remote ρ] in
theorem Stands.firstError {may : Bool} {xs : List Trouble} (h : Stands may s xs)
    (hs : s.Coherent) : s.firstError = xs.head?.map Trouble.message := by
  cases h with
  | goesOn hc _ _ _ => exact (hs.isOpen hc).faultless
  | left _ _ _ hf _ | failed _ _ _ hf => exact hf

/-- A session that meets a failure goes on until then, and ends with a report of it. -/
theorem Stands.meets {may : Bool} {xs : List Trouble} {σ : Stimulus} {x : Trouble}
    (h : Stands may s xs) (hs : s.Coherent) (hx : s.trouble? σ = some x) :
    s.Open ∧ (s.step σ).isClosing = true ∧
      Record.events (s.step σ).record = Record.events s.record ++ x.report may := by
  cases hc : s.isClosing with
  | true => simp [trouble?_of_isClosing hc] at hx
  | false =>
      cases h with
      | left hp _ _ _ _ | failed hp _ _ _ => simp [isClosing, hp] at hc
      | goesOn _ hp hi _ =>
          have hf := hs.fares hc hi σ
          rw [hx] at hf
          cases hf with
          | fails hr hes hc' _ _ =>
              exact ⟨hs.isOpen hc, isClosing_of_closed hc',
                by simp [hr, Record.events_eq_nil hes, ← hp]⟩

/-- A session meets one failure at most, none before it, and as long as it goes on it has met none.
What it then says of it is the last that it says; and it invites its client to log in again once at
most, if it may, and last of all. -/
theorem failure_told_once (config : Config) (remote : ρ) (cached : Option Credentials)
    (env : Environment.Pairs) (σs : List Stimulus) :
    let begun := start config remote cached env
    let s := begun.run σs
    let may := config.permissions.allowReauth
    let told := Record.events s.record
    (begun.troubles σs).length ≤ 1 ∧
    s.firstError = (begun.troubles σs).head?.map Trouble.message ∧
    (s.isClosing = false → s.firstError = none) ∧
    (∀ past σ rest x, σs = past ++ σ :: rest → (begun.run past).trouble? σ = some x →
      (begun.run past).firstError = none ∧
        told = Record.events (begun.run past).record ++ x.report may) ∧
    (.reauth ∈ told → may = true ∧ ∃ past, told = past ++ [.reauth] ∧ .reauth ∉ past) := by
  intro begun s may told
  have hb : begun.Coherent := coherent_start config remote cached env
  have hstart : Stands may begun [] := stands_start config remote cached env
  have h : Stands may s (begun.troubles σs) := hstart.run hb σs
  have hs : s.Coherent := hb.run σs
  refine ⟨h.length_le, h.firstError hs, fun hc => (hs.isOpen hc).faultless, ?_, h.invites⟩
  rintro past σ rest x rfl hx
  have hp : (begun.run past).Coherent := hb.run past
  have hpast : Stands may (begun.run past) (begun.troubles past) := hstart.run hb past
  obtain ⟨ho, hend, hev⟩ := hpast.meets hp hx
  obtain ⟨n, hn⟩ := run_closing hend rest
  refine ⟨ho.faultless, ?_⟩
  have hrun : s = ((begun.run past).step σ).run rest := by simp [s, Session.run]
  rw [← hev]
  simp only [told, hrun, hn]

/-- A server that accepts nobody. -/
def unwelcoming : Script :=
  { connects := [{ failure := some (.authentication "permission denied") }] }

def unwelcome : Credentials := ⟨"h", 22, "user", some "pw", none, none⟩

theorem failure_told_once_unwelcome :
    let begun := start Config.standard unwelcoming none []
    let past : List Stimulus := [.message (.ok (.auth ⟨unwelcome, none, none⟩))]
    let x : Trouble := .connection unwelcome (.authentication "permission denied")
    let told := Record.events (begun.run (past ++ [.settle, .departed])).record
    (begun.run past).trouble? .settle = some x ∧ (begun.run past).firstError = none ∧
    told = [.authResult false (some x.message), .reauth] ∧
    ∃ first, told = first ++ [.reauth] ∧ .reauth ∉ first := by
  intro begun past x told
  obtain ⟨-, -, -, hmeets, hinvites⟩ := failure_told_once Config.standard unwelcoming none []
    (past ++ [.settle, .departed])
  have hx : (begun.run past).trouble? .settle = some x := by decide +kernel
  obtain ⟨hfirst, htold⟩ := hmeets past .settle [.departed] x rfl hx
  have hsaid : Record.events (begun.run past).record ++ x.report true =
      [.authResult false (some x.message), .reauth] := by decide +kernel
  have hall : told = [.authResult false (some x.message), .reauth] := htold.trans hsaid
  have hm : .reauth ∈ told := by
    rw [hall]
    simp
  exact ⟨hx, hfirst, hall, (hinvites hm).2⟩

end Session

end TerminalGateway

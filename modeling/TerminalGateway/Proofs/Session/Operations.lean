import TerminalGateway.Proofs.Session.Coherence
import TerminalGateway.Proofs.Session.Traffic

/-!
What a session asks its server side to do for its client: one operation at most for each message
that it handles, and nothing else. Its phase, its permissions and its credentials decide which one.
-/

namespace TerminalGateway

namespace Entry

/-- An operation on a connection or its stream. -/
def isOperation : Entry → Bool
  | .called (.shell _ _) _ | .called (.exec _ _ _) _ | .called (.write _) _
  | .called (.resize _) _ => true
  | _ => false

/-- What a session does when it ends, and what it then says. -/
def isParting : Entry → Bool
  | .called .hangUp _ | .socketClosed | .left | .sent (.sshError _) | .sent .reauth => true
  | _ => false

theorem restful_of_isParting {e : Entry} (h : e.isParting = true) : (!e.isOperation) = true := by
  unfold isParting at h
  split at h <;> simp_all [isOperation]

end Entry

/-- The operations in a record, in order. -/
def Record.operations (record : List Entry) : List Entry := record.filter Entry.isOperation

@[simp] theorem Record.operations_append (record es : List Entry) :
    operations (record ++ es) = operations record ++ operations es :=
  List.filter_append ..

/-- An operation and what comes of it. -/
structure Operation (ρ : Type) where
  call : Call
  result : ρ × Outcome

def Operation.entry {ρ : Type} (o : Operation ρ) : Entry := .called o.call o.result.2

namespace Session

variable {ρ : Type} {s t u : Session ρ} {p q : Entry → Bool}

/-! ### Entries of one kind -/

/-- A session added entries of one kind to its record. -/
def Adds (p : Entry → Bool) (s t : Session ρ) : Prop :=
  ∃ es, t.record = s.record ++ es ∧ ∀ e ∈ es, p e = true

namespace Adds

theorem of_record {es : List Entry} (hr : t.record = s.record ++ es) (he : es.all p = true) :
    Adds p s t :=
  ⟨es, hr, List.all_eq_true.mp he⟩

theorem same (hr : t.record = s.record) : Adds p s t := ⟨[], by simp [hr], by simp⟩

theorem trans (h : Adds p s t) (h' : Adds p t u) : Adds p s u := by
  obtain ⟨es, hr, he⟩ := h
  obtain ⟨es', hr', he'⟩ := h'
  refine ⟨es ++ es', by rw [hr', hr, List.append_assoc], fun e hm => ?_⟩
  rcases List.mem_append.mp hm with hm | hm
  · exact he e hm
  · exact he' e hm

theorem mono (h : Adds p s t) (hpq : ∀ e, p e = true → q e = true) : Adds q s t := by
  obtain ⟨es, hr, he⟩ := h
  exact ⟨es, hr, fun e hm => hpq e (he e hm)⟩

variable [Remote ρ]

theorem ended (s : Session ρ) : Adds Entry.isParting s s.ended := of_record rfl rfl

theorem failing_ended (s : Session ρ) (message : String) :
    Adds Entry.isParting s (s.failing message (.sshError message)).ended := by
  have hf : Adds Entry.isParting s (s.failing message (.sshError message)) := of_record rfl rfl
  exact hf.trans (ended _)

theorem broken (s : Session ρ) (f : Failure) : Adds Entry.isParting s (s.broken f) := by
  unfold Session.broken
  split
  · have hi : Adds Entry.isParting s (s.keeping (f.userMessage s.target.1 s.target.2)).inviting :=
      of_record rfl rfl
    exact hi.trans (ended _)
  · exact failing_ended s _

theorem parted (s : Session ρ) : Adds Entry.isParting s s.parted := by
  unfold Session.parted
  split
  · exact of_record rfl rfl
  · exact same rfl

end Adds

theorem Adds.rebuffed [Remote ρ] (hp : ∀ e, e.isParting = true → p e = true)
    (ha : ∀ message, p (.sent (.authResult false message)) = true) (s : Session ρ)
    (c : Credentials) (f : Failure) : Adds p s (s.rebuffed c f) := by
  obtain ⟨cached, offered, invitation, -, hi, hr⟩ := s.exists_rebuffed c f
  have hlast : ∀ e ∈ invitation ++ farewell, p e = true := by
    intro e he
    refine hp e ?_
    rcases hi with rfl | rfl <;> simp [farewell] at he
    all_goals rcases he with rfl | rfl | rfl | rfl <;> rfl
  refine ⟨.sent (.authResult false (some (f.userMessage c.host c.port))) :: invitation ++ farewell,
    ?_, ?_⟩
  · rw [hr, Session.ended, List.append_assoc]
  · simpa [ha] using hlast

/-! ### Operations -/

variable [Remote ρ]

/-- The operation that a message asks for, if the session does what it asks for. -/
def operation? (s : Session ρ) : Inbound → Option (Operation ρ)
  | .ok (.terminal r) =>
      if s.phase = .connected then
        some ⟨.shell ⟨(s.fitted r).term, r.dimensions⟩ (s.streamEnv []),
          Remote.shell s.remote ⟨(s.fitted r).term, r.dimensions⟩ (s.streamEnv [])⟩
      else none
  | .ok (.exec r) =>
      if s.phase = .connected then
        some ⟨.exec r.command (s.execTerminal r) (s.streamEnv r.env),
          Remote.exec s.remote r.command (s.execTerminal r) (s.streamEnv r.env)⟩
      else none
  | .ok (.resize d) => some ⟨.resize d, Remote.resize s.remote d⟩
  | .ok (.data bytes) =>
      if s.phase = .streaming then some ⟨.write bytes, Remote.write s.remote bytes⟩ else none
  | .ok (.control .replayCredentials) =>
      if s.permissions.allowReplay ∧ s.phase = .streaming then
        s.replayable?.map fun password =>
          ⟨.write (s.replay password), Remote.write s.remote (s.replay password)⟩
      else none
  | _ => none

theorem operation?_of_objection {m : Inbound} {text : String} (h : s.objection? m = some text) :
    s.operation? m = none := by
  match m with
  | .error _ | .ok (.auth _) | .ok (.control .reauth) | .ok (.control .clearCredentials)
  | .ok (.control .disconnect) => rfl
  | .ok (.resize _) | .ok (.data _) => simp [objection?] at h
  | .ok (.terminal _) | .ok (.exec _) =>
      have hp : s.phase ≠ .connected := by
        intro hp
        simp [objection?, hp] at h
      simp [operation?, hp]
  | .ok (.control .replayCredentials) =>
      cases hr : s.permissions.allowReplay with
      | false => simp [operation?, hr]
      | true =>
          cases hw : s.replayable? with
          | none => simp [operation?, hw]
          | some password =>
              have hp : s.phase ≠ .streaming := by
                intro hp
                simp [objection?, hr, hw, hp] at h
              simp [operation?, hp]

theorem operation?_of_ignores {m : Inbound} (h : s.ignores m = true) : s.operation? m = none := by
  match m with
  | .ok (.terminal _) =>
      have hp : s.phase = .streaming := by simpa [ignores] using h
      simp [operation?, hp]
  | .ok (.data _) =>
      have hp : s.phase ≠ .streaming := by simpa [ignores] using h
      simp [operation?, hp]
  | .error _ | .ok (.auth _) | .ok (.resize _) | .ok (.exec _) | .ok (.control _) =>
      simp [ignores] at h

/-- A session asked for an operation, if there was one, and for nothing else. -/
def Operates (s : Session ρ) (o : Option (Operation ρ)) (t : Session ρ) : Prop :=
  ∃ es, t.record = s.record ++ es ∧ Record.operations es = (o.map Operation.entry).toList

omit [Remote ρ] in
theorem Adds.operates (h : Adds (!·.isOperation) s t) : Operates s none t := by
  obtain ⟨es, hr, he⟩ := h
  exact ⟨es, hr, List.filter_eq_nil_iff.mpr fun e hm => by simpa using he e hm⟩

omit [Remote ρ] in
theorem Adds.restful (h : Adds Entry.isParting s t) : Adds (!·.isOperation) s t :=
  h.mono fun _ he => Entry.restful_of_isParting he

omit [Remote ρ] in
theorem Operates.trans {o : Option (Operation ρ)} (h : Adds (!·.isOperation) s t)
    (h' : Operates t o u) : Operates s o u := by
  obtain ⟨es, hr, he⟩ := h.operates
  obtain ⟨es', hr', he'⟩ := h'
  refine ⟨es ++ es', by rw [hr', hr, List.append_assoc], ?_⟩
  rw [Record.operations_append, he, he']
  rfl

omit [Remote ρ] in
theorem Operates.did {v : Session ρ} {what : Call} {remote : ρ} {outcome : Outcome}
    (ho : (Entry.called what outcome).isOperation = true) (hv : v.record = s.record)
    (h : Adds Entry.isParting (v.did what remote outcome) t) :
    Operates s (some ⟨what, remote, outcome⟩) t := by
  obtain ⟨es, hr, he⟩ := h.restful.operates
  refine ⟨.called what outcome :: es, ?_, ?_⟩
  · rw [hr, Session.did, hv, List.append_assoc]
    rfl
  · rw [Record.operations, List.filter_cons_of_pos ho]
    exact congrArg (_ :: ·) he

theorem Vets.restful {c : Credentials} {found : Except String (List Net.Address)}
    (h : Vets s c found t) : Adds (!·.isOperation) s t := by
  have hv : Adds (!·.isOperation) s (s.vetted c found) := .of_record rfl rfl
  cases h with
  | allowed _ => exact hv.trans (.of_record rfl rfl)
  | refused _ => exact hv.trans (Adds.failing_ended _ _).restful

theorem Approaches.restful {c : Credentials} (h : Approaches s c t) :
    Adds (!·.isOperation) s t := by
  cases h with
  | unrestricted _ => exact .of_record rfl rfl
  | literal _ _ hv => exact hv.restful
  | named _ _ => exact .same rfl

theorem Answers.operates {m : Inbound} (h : Answers s m t) : Operates s (s.operation? m) t := by
  cases h with
  | objected h =>
      rw [operation?_of_objection h]
      exact Adds.operates (.of_record rfl rfl)
  | ignored h =>
      rw [operation?_of_ignores h]
      exact Adds.operates (.same rfl)
  | unauthenticated _ =>
      exact (((Adds.parted s).trans (.failing_ended _ _)).restful).operates
  | @authenticating r c _ _ ha =>
      have hb : Adds (!·.isOperation) s (s.parted.bound r c) :=
        (Adds.parted s).restful.trans (.same rfl)
      exact (hb.trans ha.restful).operates
  | shellOpened hp h =>
      rw [operation?, if_pos hp, h]
      exact Operates.did rfl rfl (.same rfl)
  | shellFailed hp h =>
      rw [operation?, if_pos hp, h]
      exact Operates.did rfl rfl (.broken _ _)
  | execOpened hp h =>
      rw [operation?, if_pos hp, h]
      exact Operates.did rfl rfl (.same rfl)
  | execFailed hp h =>
      rw [operation?, if_pos hp, h]
      exact Operates.did rfl rfl (.broken _ _)
  | resized h =>
      rw [operation?, h]
      exact Operates.did rfl rfl (.same rfl)
  | resizeFailed h =>
      rw [operation?, h]
      exact Operates.did rfl rfl (.broken _ _)
  | wrote hp h =>
      rw [operation?, if_pos hp, h]
      exact Operates.did rfl rfl (.same rfl)
  | writeFailed hp h =>
      rw [operation?, if_pos hp, h]
      exact Operates.did rfl rfl (.broken _ _)
  | replayed hr hw hp h =>
      rw [operation?, if_pos ⟨hr, hp⟩, hw, Option.map_some, h]
      exact Operates.did rfl rfl (.same rfl)
  | replayFailed hr hw hp h =>
      rw [operation?, if_pos ⟨hr, hp⟩, hw, Option.map_some, h]
      exact Operates.did rfl rfl (.failing_ended _ _)
  | reauthed _ =>
      have he : Adds Entry.isParting s ({ s with cached := none }.emit .reauth) :=
        .of_record rfl rfl
      exact (he.trans (.ended _)).restful.operates
  | forgot => exact Adds.operates (.same rfl)
  | disconnected => exact (Adds.ended s).restful.operates

theorem Receives.restful {e : Option StreamEvent} (h : Receives s e t) :
    Adds (!·.isOperation) s t := by
  cases h with
  | output | extended | execClosed _ _ _ => exact .of_record rfl rfl
  | exitStatus _ | exitSignal _ => exact .same rfl
  | shellSignalled _ _ _ _ | failed => exact (Adds.broken _ _).restful
  | shellClosed _ _ _ _ => exact (Adds.ended _).restful

/-! ### Settings -/

/-- What the operator decided, which no session changes. -/
def settings (s : Session ρ) : Config × Permissions := (s.config, s.permissions)

theorem settings_broken (s : Session ρ) (f : Failure) : (s.broken f).settings = s.settings := by
  unfold Session.broken
  split <;> rfl

theorem settings_rebuffed (s : Session ρ) (c : Credentials) (f : Failure) :
    (s.rebuffed c f).settings = s.settings := by
  obtain ⟨_, _, _, -, -, hr⟩ := s.exists_rebuffed c f
  rw [hr]
  rfl

theorem Vets.settings {c : Credentials} {found : Except String (List Net.Address)}
    (h : Vets s c found t) : t.settings = s.settings := by
  cases h <;> rfl

theorem Approaches.settings {c : Credentials} (h : Approaches s c t) :
    t.settings = s.settings := by
  cases h with
  | literal _ _ hv => exact hv.settings
  | unrestricted _ | named _ _ => rfl

theorem Answers.settings {m : Inbound} (h : Answers s m t) : t.settings = s.settings := by
  have hpart : s.parted.settings = s.settings := by
    unfold Session.parted
    split <;> rfl
  cases h with
  | unauthenticated _ => exact hpart
  | authenticating _ ha => exact ha.settings.trans hpart
  | shellFailed _ _ | execFailed _ _ | resizeFailed _ | writeFailed _ _ =>
      exact settings_broken _ _
  | _ => rfl

theorem Receives.settings {e : Option StreamEvent} (h : Receives s e t) :
    t.settings = s.settings := by
  cases h with
  | shellSignalled _ _ _ _ | failed => exact settings_broken _ _
  | _ => rfl

theorem Moves.settings {σ : Stimulus} (h : Moves s σ t) : t.settings = s.settings := by
  cases h with
  | answered _ ha => exact ha.settings
  | resumed _ _ _ ha => exact ha.settings
  | resolved _ hv => exact hv.settings
  | received _ _ hr => exact hr.settings
  | rebuffed _ _ _ => exact settings_rebuffed _ _ _
  | _ => rfl

theorem Coherent.settings_run (h : s.Coherent) (σs : List Stimulus) :
    (s.run σs).settings = s.settings :=
  h.run_induction (P := fun t => t.settings = s.settings) rfl (fun _ ht => ht)
    fun _ _ _ _ _ _ ht hm => hm.settings.trans ht

/-! ### The messages that are handled -/

/-- The message that a session handles at a stimulus, if it handles one. -/
def dispatched? (s : Session ρ) : Stimulus → Option Inbound
  | .message m => if s.isListening then some m else none
  | .resume => if s.heeds .resume then s.backlog.head? else none
  | _ => none

/-- The messages that are handled in a run, each with the session that handles it. -/
def dispatches (s : Session ρ) : List Stimulus → List (Session ρ × Inbound)
  | [] => []
  | σ :: σs => (s.dispatched? σ).toList.map (s, ·) ++ (s.step σ).dispatches σs

omit [Remote ρ] in
theorem dispatched?_resume (hc : s.isClosing = false) (hl : s.lookup = none)
    (ha : s.attempt = none) {m : Inbound} {rest : List Inbound} (hb : s.backlog = m :: rest) :
    s.dispatched? .resume = some m := by
  simp [dispatched?, heeds, hc, hl, ha, hb]

theorem Moves.operates {σ : Stimulus} (h : Moves s σ t) (hc : s.isClosing = false) :
    Operates s ((s.dispatched? σ).bind s.operation?) t := by
  have hhandled : ∀ {u : Session ρ} {m : Inbound}, Adds (!·.isOperation) u (u.note (.handled m)) :=
    .of_record rfl rfl
  have hsettled : ∀ remote outcome, Adds (!·.isOperation) s (s.settled remote outcome) :=
    fun _ _ => .of_record rfl rfl
  cases h with
  | answered hi ha =>
      simp only [dispatched?, hi, if_true, Option.bind_some]
      exact .trans hhandled ha.operates
  | @resumed m rest _ hl ha hb hans =>
      rw [dispatched?_resume hc hl ha hb, Option.bind_some]
      exact .trans (s := s) (.of_record rfl rfl) hans.operates
  | @queued m c hl ha =>
      have hi : s.isListening = false := by simp [isListening, ha]
      simp only [dispatched?, hi]
      exact Adds.operates (.same rfl)
  | abandoned _ _ => exact Adds.operates (.same rfl)
  | prompted _ _ | counted _ => exact Adds.operates (.of_record rfl rfl)
  | connected _ _ _ =>
      exact ((hsettled _ _).trans (.of_record rfl rfl)).operates
  | rebuffed _ _ _ =>
      have hr : ∀ (u : Session ρ) c f, Adds (!·.isOperation) u (u.rebuffed c f) :=
        Adds.rebuffed (fun _ => Entry.restful_of_isParting) fun _ => rfl
      exact ((hsettled _ _).trans (hr _ _ _)).operates
  | givenUp _ _ _ => exact ((hsettled _ _).trans (Adds.ended _).restful).operates
  | resolved _ hv => exact hv.restful.operates
  | departed _ => exact (Adds.ended _).restful.operates
  | @received n e _ _ _ hr =>
      have hn : Adds (!·.isOperation) s (s.note (.received n e)) := .of_record rfl rfl
      exact (hn.trans hr.restful).operates
  | expired _ _ => exact Adds.operates (.of_record rfl rfl)

omit [Remote ρ] in
theorem dispatched?_eq_none {σ : Stimulus} (h : s.heeds σ = false) : s.dispatched? σ = none := by
  cases σ with
  | message m =>
      have hi : s.isListening = false := by
        cases hi : s.isListening with
        | false => rfl
        | true =>
            obtain ⟨hc, hl, ha, hb⟩ := isListening_iff.mp hi
            simp [heeds, isHearing, hc, hl, ha, hb] at h
      simp [dispatched?, hi]
  | resume => simp [dispatched?, h]
  | _ => rfl

omit [Remote ρ] in
/-- A session that is ending takes no message. -/
theorem isClosing_of_dispatched {σ : Stimulus} {m : Inbound} (h : s.dispatched? σ = some m) :
    s.isClosing = false := by
  cases hc : s.isClosing with
  | false => rfl
  | true =>
      by_cases hσ : σ = .elapse
      · simp [hσ, dispatched?] at h
      · rw [dispatched?_eq_none (heeds_of_isClosing hc hσ)] at h
        cases h

theorem Coherent.operates (h : s.Coherent) (σ : Stimulus) :
    Operates s ((s.dispatched? σ).bind s.operation?) (s.step σ) := by
  by_cases hσ : σ = .elapse
  · rw [hσ, step_elapse]
    exact Adds.operates (.same rfl)
  rcases h.heeded_cases hσ with ⟨hh, hs⟩ | ⟨ho, hm⟩
  · rw [hs, dispatched?_eq_none hh]
    exact Adds.operates (.same rfl)
  · exact hm.operates ho.goesOn

theorem Moves.handled {σ : Stimulus} (h : Moves s σ t) (hc : s.isClosing = false) :
    Record.handled t.record = Record.handled s.record ++ (s.dispatched? σ).toList := by
  have hkept : σ.message? = none → σ ≠ .resume → s.dispatched? σ = none →
      Record.handled t.record = Record.handled s.record ++ (s.dispatched? σ).toList := by
    intro hm hr hd
    simp [(h.continues hm hr).handled, hd]
  have hbegun : ∀ {u : Session ρ} {m : Inbound}, Answers (u.note (.handled m)) m t →
      Record.handled t.record = Record.handled u.record ++ [m] := by
    intro u m ha
    rw [ha.continues.handled, record_note, Record.handled_append]
    rfl
  cases h with
  | answered hi ha => simpa [dispatched?, hi] using hbegun ha
  | @resumed m rest _ hl ha hb hans =>
      rw [dispatched?_resume hc hl ha hb]
      exact hbegun (u := { s with backlog := rest }) hans
  | queued hl ha => simp [dispatched?, isListening, ha]
  | _ => exact hkept rfl (by simp) rfl

theorem Coherent.handled (h : s.Coherent) (σ : Stimulus) :
    Record.handled (s.step σ).record =
      Record.handled s.record ++ (s.dispatched? σ).toList := by
  by_cases hσ : σ = .elapse
  · simp [hσ, step_elapse, dispatched?]
  rcases h.heeded_cases hσ with ⟨hh, hs⟩ | ⟨ho, hm⟩
  · simp [hs, dispatched?_eq_none hh]
  · exact hm.handled ho.goesOn

/-- The messages that are dispatched are those the record tells of. -/
theorem Coherent.handled_run (h : s.Coherent) (σs : List Stimulus) :
    Record.handled (s.run σs).record =
      Record.handled s.record ++ (s.dispatches σs).map (·.2) := by
  induction σs generalizing s with
  | nil => exact (List.append_nil _).symm
  | cons σ σs ih =>
      rw [show s.run (σ :: σs) = (s.step σ).run σs from rfl, ih (h.step σ), h.handled,
        List.append_assoc, dispatches, List.map_append, List.map_map]
      simp [Function.comp_def]

/-- A message is dispatched by the session that the stimuli before it lead to. -/
theorem mem_dispatches {σs : List Stimulus} {x : Session ρ × Inbound}
    (h : x ∈ s.dispatches σs) :
    ∃ past σ rest, σs = past ++ σ :: rest ∧ x.1 = s.run past ∧ x.1.dispatched? σ = some x.2 := by
  induction σs generalizing s with
  | nil => simp [dispatches] at h
  | cons σ σs ih =>
      rcases List.mem_append.mp h with h | h
      · obtain ⟨m, hm, rfl⟩ := List.mem_map.mp h
        exact ⟨[], σ, σs, rfl, rfl, Option.mem_toList.mp hm⟩
      · obtain ⟨past, τ, rest, rfl, hx, hd⟩ := ih h
        exact ⟨σ :: past, τ, rest, rfl, hx, hd⟩

theorem mem_dispatches_of_dispatched {past : List Stimulus} {σ : Stimulus} {m : Inbound}
    (h : (s.run past).dispatched? σ = some m) (rest : List Stimulus) :
    (s.run past, m) ∈ s.dispatches (past ++ σ :: rest) := by
  induction past generalizing s with
  | nil => exact List.mem_append_left _ (List.mem_map.mpr ⟨m, Option.mem_toList.mpr h, rfl⟩)
  | cons τ past ih => exact List.mem_append_right _ (ih h)

/-- All that a session asks its server side to do in a run is what the messages ask for that it
handles, each at its moment. -/
theorem Coherent.operations_run (h : s.Coherent) (σs : List Stimulus) :
    Record.operations (s.run σs).record = Record.operations s.record ++
      (s.dispatches σs).filterMap fun x => (x.1.operation? x.2).map Operation.entry := by
  induction σs generalizing s with
  | nil => exact (List.append_nil _).symm
  | cons σ σs ih =>
      obtain ⟨es, hr, he⟩ := h.operates σ
      have hstep := ih (h.step σ)
      rw [hr, Record.operations_append, he] at hstep
      rw [show s.run (σ :: σs) = (s.step σ).run σs from rfl, hstep, dispatches,
        List.filterMap_append, List.append_assoc]
      congr 2
      cases s.dispatched? σ with
      | none => rfl
      | some m => cases ho : s.operation? m <;> simp [ho]

end Session

end TerminalGateway

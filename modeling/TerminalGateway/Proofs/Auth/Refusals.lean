import TerminalGateway.Proofs.Auth.Acceptance
import TerminalGateway.Proofs.Auth.Attempts

/-!
What the refusal of a password does to the dialogue behind it. A server refuses a password for good,
or takes it as one part of several and names the methods that it goes on with. The client does not
tell the two apart: after either of them it leaves the dialogue out, as one that would only send the
password again.
-/

namespace TerminalGateway.Auth

/-- The methods that a refusal leaves. -/
def Turn.remaining? (t : Turn) : Option (List Method) :=
  match t.reply with
  | .ok (.verdict (.refused remaining _)) => some remaining
  | _ => none

/-- A password that is refused for good. -/
def Turn.rejectsPassword (t : Turn) : Bool :=
  match t.request, t.reply with
  | .password _, .ok (.verdict (.refused _ false)) => true
  | _, _ => false

/-- A password that is taken as one part of several. -/
def Turn.takesPasswordPartly (t : Turn) : Bool :=
  match t.request, t.reply with
  | .password _, .ok (.verdict (.refused _ true)) => true
  | _, _ => false

/-- A password that is taken as a part, by a server that goes on with a dialogue. -/
def Turn.CallsForDialogue (t : Turn) : Prop :=
  t.takesPasswordPartly = true ∧ .keyboardInteractive ∈ t.remaining?.getD []

instance (t : Turn) : Decidable t.CallsForDialogue := inferInstanceAs (Decidable (_ ∧ _))

theorem Turn.refusesPassword_eq (t : Turn) :
    t.refusesPassword = (t.rejectsPassword || t.takesPasswordPartly) := by
  obtain ⟨request, reply⟩ := t
  cases request with
  | none | publicKey _ | keyboardInteractive | answers _ => rfl
  | password _ =>
      match reply with
      | .error _ | .ok (.questions _) | .ok (.verdict .accepted)
      | .ok (.verdict (.refused _ true)) | .ok (.verdict (.refused _ false)) => rfl

namespace Exchange

/-- The methods that the most recent refusal left. -/
def remaining (x : Exchange) : List Method :=
  x.turns.foldl (fun ms t => t.remaining?.getD ms) []

/-- The server neither let the client in nor fell silent. -/
def IsOpen (x : Exchange) : Prop :=
  ∀ t ∈ x.turns, t.reply ≠ .ok (.verdict .accepted) ∧ t.reply ≠ .error .silent

instance (x : Exchange) : Decidable x.IsOpen := inferInstanceAs (Decidable (∀ t ∈ x.turns, _))

/-- As far as the server is concerned the login goes on, be it with a dialogue. -/
def AwaitsDialogue (x : Exchange) : Prop :=
  x.IsOpen ∧ .keyboardInteractive ∈ x.remaining

instance (x : Exchange) : Decidable x.AwaitsDialogue := inferInstanceAs (Decidable (_ ∧ _))

/-- A dialogue that the server would go on with is left out. -/
def SkipsDialogue (x : Exchange) : Prop :=
  x.AwaitsDialogue ∧ .keyboardInteractive ∉ x.requests

instance (x : Exchange) : Decidable x.SkipsDialogue := inferInstanceAs (Decidable (_ ∧ _))

/-- A dialogue is left out only after a password that was refused for good, and a password that was
taken as a part is followed by the dialogue that the server goes on with. -/
def TellsApart (x : Exchange) : Prop :=
  (x.SkipsDialogue → ∃ t ∈ x.turns, t.rejectsPassword = true) ∧
    ((∃ t ∈ x.turns, t.CallsForDialogue) → .keyboardInteractive ∈ x.requests)

instance (x : Exchange) : Decidable x.TellsApart :=
  inferInstanceAs (Decidable ((x.SkipsDialogue → ∃ t ∈ x.turns, t.rejectsPassword = true) ∧
    ((∃ t ∈ x.turns, t.CallsForDialogue) → .keyboardInteractive ∈ x.requests)))

/-- The password was refused, for good or not. -/
def HasRefusal (x : Exchange) : Prop := ∃ t ∈ x.turns, t.refusesPassword = true

instance (x : Exchange) : Decidable x.HasRefusal := inferInstanceAs (Decidable (∃ t ∈ x.turns, _))

@[simp] theorem remaining_note (x : Exchange) (r : Request) (reply : Except Lapse Reply) :
    (x.note r reply).remaining = (Turn.remaining? ⟨r, reply⟩).getD x.remaining := by
  simp [remaining, note]

@[simp] theorem isOpen_note (x : Exchange) (r : Request) (reply : Except Lapse Reply) :
    (x.note r reply).IsOpen ↔
      x.IsOpen ∧ reply ≠ .ok (.verdict .accepted) ∧ reply ≠ .error .silent := by
  simp only [IsOpen, note, List.forall_mem_append, List.forall_mem_singleton]

@[simp] theorem hasRefusal_note (x : Exchange) (r : Request) (reply : Except Lapse Reply) :
    (x.note r reply).HasRefusal ↔
      x.HasRefusal ∨ Turn.refusesPassword ⟨r, reply⟩ = true := by
  simp [HasRefusal, note, or_and_right, exists_or]

theorem unrefused_iff {x : Exchange} : x.Unrefused ↔ ¬ x.HasRefusal := by
  simp [Unrefused, HasRefusal]

/-- What a client without a dialogue so far goes by: what the server offers, and whether a password
was refused. -/
structure Tracks (offered refused : List Method) (x : Exchange) : Prop where
  remaining : x.remaining = offered
  noDialogue : .keyboardInteractive ∉ x.requests
  refusal : .password ∈ refused ↔ x.HasRefusal

variable {server : Server} {offered refused : List Method} {failure : Option TransportError}
  {x : Exchange}

theorem mem_requests_dialogue (x : Exchange) (server : Server) (password : Option String) :
    .keyboardInteractive ∈ (x.dialogue server password).2.requests := by
  have hprefix :
      (x.note .keyboardInteractive
        (server.converse (x.requests ++ [.keyboardInteractive]))).turns <+:
        (x.dialogue server password).2.turns := turns_prefix_converse _ _ _ _
  obtain ⟨more, hmore⟩ := hprefix
  simp [requests, ← hmore, note]

end Exchange

variable {server : Server} {offered refused : List Method} {failure : Option TransportError}
  {x : Exchange}

/-- A strategy without a dialogue is one request, which the server decides. -/
theorem Strategy.run_eq_note {s : Strategy} (hs : s.isDialogue = false) (server : Server)
    (x : Exchange) : ∃ r v, r ≠ .keyboardInteractive ∧
      s.run server x = (v, x.note r (v.map .verdict)) ∧
      (Turn.refusesPassword ⟨r, v.map .verdict⟩ = true ↔
        ∃ ms partly, v = .ok (.refused ms partly) ∧ s.method = .password) := by
  cases s with
  | dialogue _ => simp [isDialogue] at hs
  | key k =>
      exact ⟨.publicKey k, _, by simp, rfl, by simp [Turn.refusesPassword, method]⟩
  | password p =>
      refine ⟨.password p, _, by simp, rfl, ?_⟩
      generalize server.decide (x.requests ++ [.password p]) = v
      cases v with
      | error _ => simp [Turn.refusesPassword, Except.map]
      | ok verdict => cases verdict <;> simp [Turn.refusesPassword, Except.map, method]

theorem tryAll_nil : (tryAll server offered refused failure [] x).2 = x := by
  cases failure <;> rfl

theorem tryAll_singleton (s : Strategy) :
    (tryAll server offered refused failure [s] x).2 =
      if s.isWorthwhile offered refused then (s.run server x).2 else x := by
  unfold tryAll
  cases s.isWorthwhile offered refused with
  | false => exact @tryAll_nil server offered refused failure x
  | true =>
      simp only [Bool.not_true, Bool.false_eq_true, if_false, if_true]
      generalize s.run server x = result
      match result with
      | (.ok .accepted, _) | (.error .silent, _) => rfl
      | (.ok (.refused _ _), _) | (.error (.broken _), _) => exact tryAll_nil

/-- What refusals and a dialogue have to do with each other in an exchange. -/
structure Exchange.Settles (x : Exchange) : Prop where
  noDialogue : x.HasRefusal → .keyboardInteractive ∉ x.requests
  refusal : x.AwaitsDialogue → .keyboardInteractive ∉ x.requests → x.HasRefusal

theorem Exchange.Tracks.settles_dialogue (h : x.Tracks offered refused) (p : String) :
    (tryAll server offered refused failure [.dialogue (some p)] x).2.Settles := by
  rw [tryAll_singleton]
  cases hw : (Strategy.dialogue (some p)).isWorthwhile offered refused with
  | false =>
      refine ⟨fun _ => h.noDialogue, fun hawaits _ => h.refusal.mp ?_⟩
      obtain ⟨-, hoffers⟩ : x.AwaitsDialogue := hawaits
      rw [h.remaining] at hoffers
      simpa [Strategy.isWorthwhile_eq_false_iff, Strategy.method, Strategy.resubmits?, hoffers]
        using hw
  | true =>
      have hrefused : .password ∉ refused := by
        simpa [Strategy.resubmits?] using (Strategy.isWorthwhile_eq_true_iff.mp hw).2
      have hx : x.Unrefused := unrefused_iff.mpr (mt h.refusal.mpr hrefused)
      have hy : (x.dialogue server (some p)).2.Unrefused :=
        (hx.note (t := ⟨.keyboardInteractive, _⟩) rfl).converse
      have hbegun := mem_requests_dialogue x server (some p)
      exact ⟨fun hr => absurd hr (unrefused_iff.mp hy), fun _ hn => absurd hbegun hn⟩

theorem Exchange.Tracks.settles {front : List Strategy} {p : String}
    (hfront : ∀ s ∈ front, s.isDialogue = false) (h : x.Tracks offered refused) :
    (tryAll server offered refused failure (front ++ [.dialogue (some p)]) x).2.Settles := by
  induction front generalizing offered refused failure x with
  | nil => exact h.settles_dialogue p
  | cons s front ih =>
      have hrest : ∀ t ∈ front, t.isDialogue = false := fun t ht =>
        hfront t (List.mem_cons_of_mem s ht)
      rw [List.cons_append]
      unfold tryAll
      split
      · exact ih hrest h
      · obtain ⟨r, v, hr, hrun, hrefuses⟩ := s.run_eq_note (hfront s List.mem_cons_self) server x
        have hnone : .keyboardInteractive ∉ (x.note r (v.map .verdict)).requests := by
          simpa [Ne.symm hr] using h.noDialogue
        rw [hrun]
        cases v with
        | ok verdict =>
            cases verdict with
            | accepted =>
                exact ⟨fun _ => hnone,
                  fun hawaits => by simp [AwaitsDialogue, Except.map] at hawaits⟩
            | refused ms partly =>
                refine ih hrest ⟨?_, hnone, ?_⟩
                · simp [Turn.remaining?, Except.map]
                · simp [h.refusal, hrefuses, eq_comm]
        | error reason =>
            cases reason with
            | silent =>
                exact ⟨fun _ => hnone,
                  fun hawaits => by simp [AwaitsDialogue, Except.map] at hawaits⟩
            | broken e =>
                refine ih hrest ⟨?_, hnone, ?_⟩
                · simpa [Turn.remaining?, Except.map] using h.remaining
                · simp [h.refusal, hrefuses]

theorem ask_none (server : Server) :
    Exchange.ask {} server .none = (server.decide [.none],
      Exchange.note {} .none ((server.decide [.none]).map .verdict)) :=
  rfl

theorem settles_authenticate (server : Server) (readKey : KeyReader) {c : Credentials} {p : String}
    (hp : c.password = some p) : (authenticate server readKey c).2.Settles := by
  obtain ⟨front, hall, hfront⟩ : ∃ front, strategies readKey c = front ++ [.dialogue (some p)] ∧
      ∀ s ∈ front, s.isDialogue = false := by
    refine ⟨(strategies readKey c).dropLast, ?_, fun s => isDialogue_of_mem_dropLast⟩
    simp [strategies, hp]
  unfold authenticate authenticateWith
  rw [ask_none, hall]
  generalize server.decide [.none] = v
  have hnone : .keyboardInteractive ∉ (Exchange.note {} .none (v.map .verdict)).requests := by
    simp [Exchange.requests, Exchange.note]
  rcases v with e | _ | ⟨offered, partly⟩
  case ok.refused =>
    refine Exchange.Tracks.settles hfront ⟨?_, hnone, ?_⟩
    · simp [Turn.remaining?, Except.map]
    · simp [Exchange.HasRefusal, Exchange.note, Turn.refusesPassword]
  all_goals
    refine ⟨fun _ => hnone, fun hawaits => ?_⟩
    simp [Exchange.AwaitsDialogue, Exchange.remaining, Exchange.note, Turn.remaining?,
      Except.map] at hawaits

/-- Nothing is sent after a refusal of the password, for good or not. -/
theorem last_of_refusal (server : Server) (readKey : KeyReader) (c : Credentials) {t : Turn}
    (h : t ∈ (authenticate server readKey c).2.turns) (ht : t.refusesPassword = true) :
    ∃ past, (authenticate server readKey c).2.turns = past ++ [t] := by
  obtain ⟨past, rest, hsplit⟩ := List.append_of_mem h
  suffices hrest : rest = [] by exact ⟨past, by rw [hsplit, hrest]⟩
  have hgreeting : (Exchange.note {} .none ((server.decide [.none]).map .verdict)).Unrefused := by
    simp [Exchange.Unrefused, Exchange.note, Turn.refusesPassword]
  unfold authenticate authenticateWith at h hsplit
  rw [ask_none] at h hsplit
  generalize server.decide [.none] = v at h hsplit hgreeting
  rcases v with e | _ | ⟨offered, partly⟩
  case ok.refused =>
    obtain ⟨rs, htries, -⟩ := tryAll_tries server offered [] none (strategies readKey c)
      (Exchange.note {} .none (.ok (.verdict (.refused offered partly))))
    exact htries.silent_after_refusal (resubmitting_strategies readKey c) hgreeting hsplit ht
  all_goals simp [hgreeting t h] at ht

theorem Turn.exists_remaining {t : Turn} (h : t.refusesPassword = true) :
    ∃ ms, t.remaining? = some ms := by
  obtain ⟨request, reply⟩ := t
  unfold refusesPassword at h
  split at h
  · rename_i hreply
    simp only at hreply
    exact ⟨_, by rw [remaining?, hreply]⟩
  · simp at h

/-- A client with a password leaves out the dialogue that a server would go on with exactly if the
server refused the password, for good or not. So it goes on as the server wants it to exactly if the
server takes no password as one part of several of which a dialogue may be the next. -/
theorem tellsApart_iff (server : Server) (readKey : KeyReader) {c : Credentials} {p : String}
    (hp : c.password = some p) :
    let x := (authenticate server readKey c).2
    (x.SkipsDialogue ↔ x.AwaitsDialogue ∧ x.HasRefusal) ∧
      (x.TellsApart ↔ ¬ ∃ t ∈ x.turns, t.CallsForDialogue) := by
  intro x
  have hsettles : x.Settles := settles_authenticate server readKey hp
  have hskips : x.SkipsDialogue ↔ x.AwaitsDialogue ∧ x.HasRefusal :=
    and_congr_right fun h => ⟨hsettles.refusal h, hsettles.noDialogue⟩
  refine ⟨hskips, ?_, ?_⟩
  · rintro ⟨-, hgoes⟩ ⟨t, ht, hcalls⟩
    have hrefuses : x.HasRefusal := ⟨t, ht, by simp [t.refusesPassword_eq, hcalls.1]⟩
    exact hsettles.noDialogue hrefuses (hgoes ⟨t, ht, hcalls⟩)
  · intro hnot
    refine ⟨fun h => ?_, fun h => absurd h hnot⟩
    obtain ⟨⟨-, hoffers⟩, t, ht, hrefuses⟩ := hskips.mp h
    -- the refusal was the last word of the server, so it is the one that offers a dialogue
    obtain ⟨past, hlast⟩ := last_of_refusal server readKey c ht hrefuses
    obtain ⟨ms, hms⟩ := Turn.exists_remaining hrefuses
    have hremaining : x.remaining = ms := by simp [Exchange.remaining, x, hlast, hms]
    refine ⟨t, ht, ?_⟩
    rw [t.refusesPassword_eq, Bool.or_eq_true] at hrefuses
    exact hrefuses.resolve_right fun hpartly =>
      hnot ⟨t, ht, hpartly, by simpa [hms, hremaining] using hoffers⟩

/-- A server that wants a password and then a dialogue. -/
def twofold : Server where
  decide requests :=
    if requests = [.none] then .ok (.refused [.password] false)
    else .ok (.refused [.keyboardInteractive] true)
  converse _ := .ok (.verdict .accepted)

theorem tellsApart_iff_twofold :
    typist.password = some "pw" ∧ (authenticate twofold (fun _ _ => none) typist).2.SkipsDialogue :=
  ⟨rfl, (tellsApart_iff twofold (fun _ _ => none) (p := "pw") rfl).1.mpr
    ⟨⟨by decide +kernel, by decide +kernel⟩, by decide +kernel⟩⟩

/-- The server takes the password as the first of two parts, and the client does not go on. -/
theorem dialogue_skipped_twofold :
    ¬ (authenticate twofold (fun _ _ => none) typist).2.TellsApart := by
  decide +kernel

end TerminalGateway.Auth

import TerminalGateway.Auth.Chain

/-!
Which successes are heard. A client logs in exactly if the server accepted something before it had
been sent all the answers that a dialogue may give; what it says to the last of them is not looked
at.
-/

namespace TerminalGateway.Auth

def Request.isAnswers : Request → Bool
  | .answers _ => true
  | _ => false

namespace Exchange

/-- The server accepted something that it was sent. -/
def HasAccepted (x : Exchange) : Prop := ∃ t ∈ x.turns, t.reply = .ok (.verdict .accepted)

instance (x : Exchange) : Decidable x.HasAccepted :=
  inferInstanceAs (Decidable (∃ t ∈ x.turns, t.reply = .ok (.verdict .accepted)))

/-- How many times the client answered questions. -/
def answered (x : Exchange) : Nat := x.requests.countP Request.isAnswers

@[simp] theorem hasAccepted_note (x : Exchange) (r : Request) (reply : Except Lapse Reply) :
    (x.note r reply).HasAccepted ↔ x.HasAccepted ∨ reply = .ok (.verdict .accepted) := by
  simp [HasAccepted, note, or_and_right, exists_or]

@[simp] theorem answered_note (x : Exchange) (r : Request) (reply : Except Lapse Reply) :
    (x.note r reply).answered = x.answered + if r.isAnswers then 1 else 0 := by
  simp [answered, List.countP_cons]

@[simp] theorem hasAccepted_passOn (x : Exchange) (password : Option String)
    (p : InteractivePrompt) : (x.passOn password p).HasAccepted ↔ x.HasAccepted := by
  unfold passOn
  split <;> rfl

@[simp] theorem answered_passOn (x : Exchange) (password : Option String)
    (p : InteractivePrompt) : (x.passOn password p).answered = x.answered := by
  unfold passOn
  split <;> rfl

/-- The server accepted something while the client still listened. -/
def Succeeded (x : Exchange) : Prop := x.HasAccepted ∧ x.answered < roundLimit

variable {server : Server} {password : Option String}

theorem ask_eq_accepted_iff {x : Exchange} (hx : ¬ x.HasAccepted) (r : Request) :
    (x.ask server r).1 = .ok .accepted ↔ (x.ask server r).2.HasAccepted := by
  simp only [ask, hasAccepted_note, hx, false_or]
  cases server.decide (x.requests ++ [r]) <;> simp [Except.map]

theorem answered_ask (x : Exchange) {r : Request} (hr : r.isAnswers = false) :
    (x.ask server r).2.answered = x.answered := by
  simp [ask, hr]

/-- The rest of a dialogue, with the last reply still to be looked at. -/
theorem converse_eq_accepted_iff {rounds : Nat} {reply : Except Lapse Reply} {x : Exchange}
    (hx : x.HasAccepted ↔ reply = .ok (.verdict .accepted))
    (hr : x.answered + rounds = roundLimit) :
    (converse server password rounds reply x).1 = .ok .accepted ↔
      (converse server password rounds reply x).2.Succeeded := by
  induction rounds generalizing reply x with
  | zero =>
      -- all answers were given: whatever the reply is, it comes too late
      have hlate : ¬ x.Succeeded := fun h => absurd h.2 (by omega)
      cases reply with
      | error lapse => simp [converse, hlate]
      | ok reply => simp [converse, hlate]
  | succ rounds ih =>
      have htime : x.answered < roundLimit := by omega
      cases reply with
      | error lapse => simp [converse, Succeeded, hx]
      | ok reply =>
          cases reply with
          | verdict v => simp [converse, Succeeded, hx, htime]
          | questions p =>
              have hnot : ¬ x.HasAccepted := by simp [hx]
              refine ih ?_ ?_
              · simp [hnot]
              · simp only [answered_note, answered_passOn, Request.isAnswers, if_true]
                omega

theorem dialogue_eq_accepted_iff {x : Exchange} (hx : ¬ x.HasAccepted) (hr : x.answered = 0) :
    (x.dialogue server password).1 = .ok .accepted ↔
      (x.dialogue server password).2.Succeeded := by
  refine converse_eq_accepted_iff ?_ ?_
  · simp [hx]
  · simp [hr, Request.isAnswers]

end Exchange

namespace Strategy

def isDialogue : Strategy → Bool
  | .dialogue _ => true
  | _ => false

variable {server : Server} {x : Exchange}

theorem answered_run {s : Strategy} (hs : s.isDialogue = false) :
    (s.run server x).2.answered = x.answered := by
  cases s with
  | key _ | password _ => exact x.answered_ask rfl
  | dialogue _ => simp [isDialogue] at hs

theorem run_eq_accepted_iff (s : Strategy) (hx : ¬ x.HasAccepted) (hr : x.answered = 0) :
    (s.run server x).1 = .ok .accepted ↔ (s.run server x).2.Succeeded := by
  have hask : ∀ r : Request, r.isAnswers = false →
      ((x.ask server r).1 = .ok .accepted ↔ (x.ask server r).2.Succeeded) := by
    intro r h
    have htime : (x.ask server r).2.answered < roundLimit := by
      simp [x.answered_ask h, hr, roundLimit]
    rw [Exchange.ask_eq_accepted_iff hx, Exchange.Succeeded, and_iff_left htime]
  cases s with
  | key _ | password _ => exact hask _ rfl
  | dialogue _ => exact Exchange.dialogue_eq_accepted_iff hx hr

end Strategy

variable {server : Server} {offered refused : List Method} {failure : Option TransportError}

/-- Strategies of which at most the last one is a dialogue, with some of the answers to it perhaps
given when none is left. -/
theorem tryAll_eq_true_iff {all : List Strategy} {x : Exchange}
    (hall : ∀ s ∈ all.dropLast, s.isDialogue = false) (hx : ¬ x.Succeeded)
    (hr : all ≠ [] → x.answered = 0) :
    (tryAll server offered refused failure all x).1 = .ok true ↔
      (tryAll server offered refused failure all x).2.Succeeded := by
  induction all generalizing offered refused failure x with
  | nil => cases failure <;> simp [tryAll, hx]
  | cons s rest ih =>
      have hzero : x.answered = 0 := hr (by simp)
      have hrest : ∀ t ∈ rest.dropLast, t.isDialogue = false := by
        intro t ht
        have hne : rest ≠ [] := by
          rintro rfl
          simp at ht
        exact hall t (by simp [List.dropLast_cons_of_ne_nil hne, ht])
      unfold tryAll
      split
      · exact ih hrest hx fun _ => hzero
      · have hnone : ¬ x.HasAccepted := fun h => hx ⟨h, by simp [hzero, roundLimit]⟩
        have hrun : (s.run server x).1 = .ok .accepted ↔ (s.run server x).2.Succeeded :=
          s.run_eq_accepted_iff hnone hzero
        have hzero' : rest ≠ [] → (s.run server x).2.answered = 0 := by
          intro hne
          rw [Strategy.answered_run (hall s (by simp [List.dropLast_cons_of_ne_nil hne])), hzero]
        generalize s.run server x = result at hrun hzero' ⊢
        obtain ⟨v, y⟩ := result
        match v with
        | .ok .accepted => simpa using hrun
        | .ok (.refused remaining _) | .error (.broken e) =>
            exact ih hrest (fun h => by simpa using hrun.mpr h) hzero'
        | .error .silent => simpa using hrun

theorem isDialogue_of_mem_dropLast {readKey : KeyReader} {c : Credentials} {s : Strategy}
    (h : s ∈ (strategies readKey c).dropLast) : s.isDialogue = false := by
  simp only [strategies, List.dropLast_concat, List.mem_append, Option.mem_toList,
    Option.map_eq_some_iff] at h
  rcases h with ⟨_, -, rfl⟩ | ⟨_, -, rfl⟩ <;> rfl

/-- A login succeeds exactly if the server accepted something before the last answers that a
dialogue may give. A success that comes after those is lost. -/
theorem authenticate_eq_true_iff (server : Server) (readKey : KeyReader) (c : Credentials) :
    (authenticate server readKey c).1 = .ok true ↔
      (authenticate server readKey c).2.HasAccepted ∧
        (authenticate server readKey c).2.answered < roundLimit := by
  have hask : (Exchange.ask {} server .none).1 = .ok .accepted ↔
      (Exchange.ask {} server .none).2.HasAccepted :=
    Exchange.ask_eq_accepted_iff (by decide) .none
  have hzero : (Exchange.ask {} server .none).2.answered = 0 := Exchange.answered_ask {} rfl
  unfold authenticate authenticateWith
  generalize Exchange.ask {} server .none = result at hask hzero ⊢
  obtain ⟨v, x⟩ := result
  match v with
  | .ok .accepted =>
      have htime : x.answered < roundLimit := by simp [show x.answered = 0 from hzero, roundLimit]
      simpa [htime] using hask
  | .ok (.refused remaining _) =>
      refine tryAll_eq_true_iff (fun _ => isDialogue_of_mem_dropLast) ?_ fun _ => hzero
      exact fun h => by simpa using hask.mpr h.1
  | .error lapse => simpa using fun h => absurd (hask.mpr h) (by simp)

/-- A server that lets a client in after as many rounds of questions as the client answers. -/
def thorough : Server where
  decide _ := .ok (.refused [.keyboardInteractive] false)
  converse requests :=
    if requests.countP Request.isAnswers < roundLimit then
      .ok (.questions ⟨"", "", [⟨"Password: ", false⟩]⟩)
    else .ok (.verdict .accepted)

def typist : Credentials := ⟨"h", 22, "user", some "pw", none, none⟩

/-- The server accepts the last answers, and yet the login fails. -/
theorem accepted_unheard :
    ¬ ((authenticate thorough (fun _ _ => none) typist).1 = .ok true ↔
      (authenticate thorough (fun _ _ => none) typist).2.HasAccepted) := by
  decide +kernel

end TerminalGateway.Auth

import TerminalGateway.Auth.Dialogue

/-!
A dialogue round by round. In each round the server asks and the client answers; the last thing that
the server says is no question, or it comes after as many rounds as the client takes part in. What
the server asks may depend on all that it was told.
-/

namespace TerminalGateway.Auth

/-- What the server asks, and what the client answers to it. -/
structure Round where
  asked : InteractivePrompt
  answers : List String

/-- A request, the rounds that it leads to, and the last thing that the server says. -/
def conversation (last : Except Lapse Reply) : Request → List Round → List Turn
  | request, [] => [⟨request, last⟩]
  | request, r :: rounds =>
      ⟨request, .ok (.questions r.asked)⟩ :: conversation last (.answers r.answers) rounds

/-- Every reply is what the server says to all that it was sent by then. -/
def Truthful (server : Server) (sent : List Request) (turns : List Turn) : Prop :=
  ∀ past t rest, turns = past ++ t :: rest →
    t.reply = server.converse (sent ++ past.map (·.request) ++ [t.request])

/-- The questions of rounds that are passed on to the user. -/
def passedOn (password : Option String) (rounds : List Round) : List InteractivePrompt :=
  if password.isSome then [] else (rounds.map (·.asked)).filter (·.prompts ≠ [])

/-- What comes of the last thing that the server says, with the rounds that were left. -/
def conclusion (left : Nat) : Except Lapse Reply → Except Lapse Verdict
  | .error lapse => .error lapse
  | .ok (.questions _) => .ok (.refused [] false)
  | .ok (.verdict v) => if left = 0 then .ok (.refused [] false) else .ok v

/-- A conversation from a request on, within a number of rounds. -/
structure Conversed (server : Server) (password : Option String) (limit : Nat) (x : Exchange)
    (request : Request) (result : Except Lapse Verdict × Exchange) (rounds : List Round)
    (last : Except Lapse Reply) : Prop where
  turns : result.2.turns = x.turns ++ conversation last request rounds
  truthful : Truthful server x.requests (conversation last request rounds)
  answers : ∀ r ∈ rounds, r.answers = answersTo r.asked.prompts.length password
  forwarded : result.2.forwarded = x.forwarded ++ passedOn password rounds
  bounded : rounds.length ≤ limit
  asked : ∀ p, last = .ok (.questions p) → rounds.length = limit
  verdict : result.1 = conclusion (limit - rounds.length) last

variable {server : Server} {password : Option String} {x : Exchange}

theorem truthful_singleton {sent : List Request} {t : Turn}
    (h : t.reply = server.converse (sent ++ [t.request])) : Truthful server sent [t] := by
  intro past u rest hu
  cases past with
  | nil =>
      obtain ⟨rfl, -⟩ := List.cons.inj hu
      simpa using h
  | cons _ past => simp at hu

theorem Truthful.cons {sent : List Request} {t : Turn} {turns : List Turn}
    (h : t.reply = server.converse (sent ++ [t.request]))
    (hrest : Truthful server (sent ++ [t.request]) turns) : Truthful server sent (t :: turns) := by
  intro past u rest hu
  cases past with
  | nil =>
      obtain ⟨rfl, -⟩ := List.cons.inj hu
      simpa using h
  | cons _ past =>
      obtain ⟨rfl, hturns⟩ := List.cons.inj hu
      simpa using hrest past u rest hturns

theorem passedOn_cons (r : Round) (rounds : List Round) :
    passedOn password (r :: rounds) = passedOn password [r] ++ passedOn password rounds := by
  cases password with
  | none => rw [passedOn, passedOn, passedOn, ← List.singleton_append, List.map_append,
      List.filter_append]; rfl
  | some _ => rfl

theorem Exchange.forwarded_passOn (x : Exchange) (password : Option String) (r : Round) :
    (x.passOn password r.asked).forwarded = x.forwarded ++ passedOn password [r] := by
  cases password with
  | some _ => simp [passOn, passedOn]
  | none => by_cases h : r.asked.prompts = [] <;> simp [passOn, passedOn, forward, h]

theorem exists_last (last : Except Lapse Reply) (request : Request) (rounds : List Round) :
    ∃ past t, conversation last request rounds = past ++ [t] ∧ t.reply = last := by
  induction rounds generalizing request with
  | nil => exact ⟨[], _, rfl, rfl⟩
  | cons r rounds ih =>
      obtain ⟨past, t, hturns, ht⟩ := ih (.answers r.answers)
      exact ⟨_ :: past, t, by rw [conversation, hturns, List.cons_append], ht⟩

/-- A conversation is over if nothing is answered any more. -/
theorem conversed_nil {limit : Nat} {request : Request} {reply : Except Lapse Reply}
    {result : Except Lapse Verdict × Exchange}
    (hreply : reply = server.converse (x.requests ++ [request]))
    (hx : result.2 = x.note request reply) (hv : result.1 = conclusion limit reply)
    (hq : ∀ p, reply = .ok (.questions p) → limit = 0) :
    Conversed server password limit x request result [] reply where
  turns := by rw [hx]; rfl
  truthful := truthful_singleton hreply
  answers := by simp
  forwarded := by simp [hx, passedOn, Exchange.note]
  bounded := Nat.zero_le _
  asked p hp := (hq p hp).symm
  verdict := hv

/-- Whatever the server said to the last request, the conversation goes on from there. -/
theorem exists_conversed {limit : Nat} {request : Request} {reply : Except Lapse Reply}
    (hreply : reply = server.converse (x.requests ++ [request])) :
    ∃ rounds last, Conversed server password limit x request
      (Exchange.converse server password limit reply (x.note request reply)) rounds last := by
  induction limit generalizing x request reply with
  | zero =>
      match reply with
      | .error _ | .ok (.verdict _) | .ok (.questions _) =>
          exact ⟨[], _, conversed_nil hreply rfl rfl fun _ _ => rfl⟩
  | succ limit ih =>
      match reply with
      | .error _ | .ok (.verdict _) =>
          exact ⟨[], _, conversed_nil hreply rfl rfl (by simp)⟩
      | .ok (.questions p) =>
          -- the rounds that follow begin with the answers to these questions
          let r : Round := ⟨p, answersTo p.prompts.length password⟩
          let y := (x.note request (.ok (.questions p))).passOn password r.asked
          have hsent : y.requests = x.requests ++ [request] := by simp [y]
          have hpassed : y.forwarded = x.forwarded ++ passedOn password [r] :=
            Exchange.forwarded_passOn _ password r
          obtain ⟨rounds, last, h⟩ : ∃ rounds last, Conversed server password limit y
              (.answers r.answers) (Exchange.converse server password limit _ _) rounds last :=
            ih rfl
          refine ⟨r :: rounds, last,
            { turns := ?_
              truthful := Truthful.cons hreply (hsent ▸ h.truthful)
              answers := List.forall_mem_cons.mpr ⟨rfl, h.answers⟩
              forwarded := ?_
              bounded := Nat.succ_le_succ h.bounded
              asked := fun p hp => congrArg Nat.succ (h.asked p hp)
              verdict := ?_ }⟩
          · refine h.turns.trans ?_
            simp [y, Exchange.note, conversation, r]
          · refine h.forwarded.trans ?_
            rw [hpassed, passedOn_cons r rounds, List.append_assoc]
          · refine h.verdict.trans ?_
            simp

/-- In each round of a dialogue the answers are the password, once for every question, and nothing
is passed on to the user. Without a password they are empty, and the questions of every round that
has any are passed on as they are. There are only so many rounds, and a server that goes on asking
is taken to refuse; so is one that decides after the last of them. A verdict before that is the
verdict of the dialogue, and a broken connection its failure. -/
theorem dialogue_by_rounds (x : Exchange) (server : Server) (password : Option String) :
    let result := x.dialogue server password
    ∃ rounds last,
      result.2.turns = x.turns ++ conversation last .keyboardInteractive rounds ∧
      Truthful server x.requests (conversation last .keyboardInteractive rounds) ∧
      (∀ secret, password = some secret → result.2.forwarded = x.forwarded ∧
        ∀ r ∈ rounds, r.answers.length = r.asked.prompts.length ∧ ∀ a ∈ r.answers, a = secret) ∧
      (password = none →
        result.2.forwarded = x.forwarded ++ (rounds.map (·.asked)).filter (·.prompts ≠ []) ∧
          ∀ r ∈ rounds, r.answers = []) ∧
      rounds.length ≤ roundLimit ∧
      result.1 = (match last with
        | .error lapse => .error lapse
        | .ok (.verdict v) =>
            if rounds.length < roundLimit then .ok v else .ok (.refused [] false)
        | .ok (.questions _) => .ok (.refused [] false)) ∧
      (∀ p, last = .ok (.questions p) → rounds.length = roundLimit) ∧
      ((∀ sent, ∃ p, server.converse sent = .ok (.questions p)) →
        rounds.length = roundLimit ∧ result.1 = .ok (.refused [] false)) := by
  intro result
  obtain ⟨rounds, last, h⟩ : ∃ rounds last, Conversed server password roundLimit x
      .keyboardInteractive result rounds last := exists_conversed rfl
  have hforwarded : result.2.forwarded = x.forwarded ++ passedOn password rounds := h.forwarded
  have hverdict : result.1 = conclusion (roundLimit - rounds.length) last := h.verdict
  refine ⟨rounds, last, h.turns, h.truthful, ?_, ?_, h.bounded, ?_, h.asked, ?_⟩
  · rintro secret rfl
    refine ⟨by simpa [passedOn] using hforwarded, fun r hr => ?_⟩
    simp [h.answers r hr, answersTo]
  · rintro rfl
    exact ⟨hforwarded, h.answers⟩
  · rw [hverdict]
    match last with
    | .error _ | .ok (.questions _) => rfl
    | .ok (.verdict v) =>
        by_cases hleft : rounds.length < roundLimit
        · simp [conclusion, hleft, Nat.sub_ne_zero_of_lt hleft]
        · simp [conclusion, hleft, Nat.sub_eq_zero_of_le (Nat.le_of_not_lt hleft)]
  · intro hasks
    obtain ⟨past, t, hturns, rfl⟩ := exists_last last .keyboardInteractive rounds
    obtain ⟨p, hp⟩ := hasks (x.requests ++ past.map (·.request) ++ [t.request])
    have hlast : t.reply = .ok (.questions p) := (h.truthful past t [] hturns).trans hp
    rw [hlast] at hverdict
    exact ⟨h.asked p hlast, hverdict⟩

end TerminalGateway.Auth

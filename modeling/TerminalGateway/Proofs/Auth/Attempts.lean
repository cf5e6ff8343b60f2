import TerminalGateway.Auth.Chain
import TerminalGateway.Proofs.Auth.Rounds

/-!
Which strategies are tried. A request without credentials comes first; its refusal and each later
one say what may be tried next, and what comes of the login can be read off the reports of the
strategies that were tried.
-/

namespace TerminalGateway.Auth

/-- A strategy that was tried, and what came of it. -/
structure Report where
  strategy : Strategy
  verdict : Except Lapse Verdict

namespace Report

/-- The methods that a refused strategy left. -/
def remaining? (r : Report) : Option (List Method) :=
  match r.verdict with
  | .ok (.refused remaining _) => some remaining
  | _ => none

def lapse? (r : Report) : Option Lapse :=
  match r.verdict with
  | .error lapse => some lapse
  | _ => none

/-- Nothing is tried any more after a success, nor while the server is silent. -/
def IsFinal (r : Report) : Prop := r.verdict = .ok .accepted ∨ r.verdict = .error .silent

end Report

/-- The methods that the most recent refusal left. -/
def remainingAfter (offered : List Method) (rs : List Report) : List Method :=
  rs.foldl (fun ms r => r.remaining?.getD ms) offered

/-- The methods that were refused. -/
def refusedIn (rs : List Report) : List Method :=
  rs.filterMap fun r => r.remaining?.map fun _ => r.strategy.method

/-- The strategies of the reports, one after another, lead from one exchange to another. -/
def Performed (server : Server) : Exchange → List Report → Exchange → Prop
  | x, [], y => y = x
  | x, r :: rs, y =>
      (r.strategy.run server x).1 = r.verdict ∧
        Performed server (r.strategy.run server x).2 rs y

/-- An attempt with its report: a key or a password is sent once, and a dialogue is a conversation.
The report has the verdict that the server gave. -/
inductive Attempt (server : Server) (x : Exchange) : Report → Exchange → Prop
  | key {key : PrivateKey} {v : Except Lapse Verdict}
      (h : server.decide (x.requests ++ [.publicKey key]) = v) :
      Attempt server x ⟨.key key, v⟩ (x.note (.publicKey key) (v.map .verdict))
  | password {password : String} {v : Except Lapse Verdict}
      (h : server.decide (x.requests ++ [.password password]) = v) :
      Attempt server x ⟨.password password, v⟩ (x.note (.password password) (v.map .verdict))
  | dialogue {password : Option String} {v : Except Lapse Verdict} {y : Exchange}
      {rounds : List Round} {last : Except Lapse Reply}
      (h : Conversed server password roundLimit x .keyboardInteractive (v, y) rounds last) :
      Attempt server x ⟨.dialogue password, v⟩ y

/-- A course of strategies: some are left out, the others have their reports. -/
inductive Tries (server : Server) : List Method → List Method → List Strategy → Exchange →
    List Report → Exchange → Prop
  | exhausted {offered refused : List Method} {x : Exchange} :
      Tries server offered refused [] x [] x
  | skipped {offered refused : List Method} {s : Strategy} {all : List Strategy}
      {x y : Exchange} {rs : List Report} (h : s.isWorthwhile offered refused = false)
      (rest : Tries server offered refused all x rs y) :
      Tries server offered refused (s :: all) x rs y
  | tried {offered refused : List Method} {s : Strategy} {v : Except Lapse Verdict}
      {all : List Strategy} {x z y : Exchange} {rs : List Report}
      (h : s.isWorthwhile offered refused = true) (hr : s.run server x = (v, z))
      (hv : ¬ Report.IsFinal ⟨s, v⟩)
      (rest : Tries server (remainingAfter offered [⟨s, v⟩]) (refused ++ refusedIn [⟨s, v⟩]) all z
        rs y) :
      Tries server offered refused (s :: all) x (⟨s, v⟩ :: rs) y
  | final {offered refused : List Method} {s : Strategy} {v : Except Lapse Verdict}
      {all : List Strategy} {x y : Exchange} (h : s.isWorthwhile offered refused = true)
      (hr : s.run server x = (v, y)) (hv : Report.IsFinal ⟨s, v⟩) :
      Tries server offered refused (s :: all) x [⟨s, v⟩] y

/-- What reports come to, with the failure that there was before them. -/
def concluded (failure : Option TransportError) (rs : List Report) : Except Lapse Bool :=
  if ∃ r ∈ rs, r.verdict = .ok .accepted then .ok true
  else
    match (rs.filterMap Report.lapse?).getLast?.or (failure.map .broken) with
    | some lapse => .error lapse
    | none => .ok false

variable {server : Server} {offered refused : List Method} {failure : Option TransportError}
  {all : List Strategy} {x y : Exchange} {rs : List Report}

theorem refusedIn_cons (r : Report) (rs : List Report) :
    refusedIn (r :: rs) = refusedIn [r] ++ refusedIn rs := by
  rw [refusedIn, refusedIn, refusedIn, ← List.filterMap_append, List.singleton_append]

theorem concluded_refused (s : Strategy) (remaining : List Method) (partly : Bool) :
    concluded failure (⟨s, .ok (.refused remaining partly)⟩ :: rs) = concluded failure rs := by
  simp [concluded, Report.lapse?]

theorem concluded_broken (s : Strategy) (e : TransportError) :
    concluded failure (⟨s, .error (.broken e)⟩ :: rs) = concluded (some e) rs := by
  cases h : (rs.filterMap Report.lapse?).getLast? <;>
    simp [concluded, Report.lapse?, List.getLast?_cons, h]

theorem concluded_eq_true_iff :
    concluded failure rs = .ok true ↔ ∃ r ∈ rs, r.verdict = .ok .accepted := by
  unfold concluded
  split
  · simp_all
  · split <;> simp_all

theorem tryAll_tries (server : Server) (offered refused : List Method)
    (failure : Option TransportError) (all : List Strategy) (x : Exchange) :
    ∃ rs, Tries server offered refused all x rs (tryAll server offered refused failure all x).2 ∧
      (tryAll server offered refused failure all x).1 = concluded failure rs := by
  fun_induction tryAll server offered refused failure all x with
  | case1 | case2 => exact ⟨[], .exhausted, by simp [concluded]⟩
  | case3 offered refused failure s rest x h ih =>
      obtain ⟨rs, ht, hr⟩ := ih
      exact ⟨rs, .skipped (by simpa using h) ht, hr⟩
  | case4 offered refused failure s rest x h y hrun =>
      exact ⟨_, .final (by simpa using h) hrun (.inl rfl), by simp [concluded]⟩
  | case5 offered refused failure s rest x h remaining partly z hrun ih =>
      obtain ⟨rs, ht, hr⟩ := ih
      refine ⟨_, .tried (by simpa using h) hrun (by simp [Report.IsFinal]) ht, ?_⟩
      rw [hr, concluded_refused]
  | case6 offered refused failure s rest x h e z hrun ih =>
      obtain ⟨rs, ht, hr⟩ := ih
      refine ⟨⟨s, .error (.broken e)⟩ :: rs,
        .tried (by simpa using h) hrun (by simp [Report.IsFinal]) ?_, ?_⟩
      · simpa [remainingAfter, refusedIn, Report.remaining?] using ht
      · rw [hr, concluded_broken]
  | case7 offered refused failure s rest x h y hrun =>
      exact ⟨_, .final (by simpa using h) hrun (.inr rfl), by simp [concluded, Report.lapse?]⟩

namespace Tries

theorem sublist (h : Tries server offered refused all x rs y) :
    (rs.map (·.strategy)).Sublist all := by
  induction h with
  | exhausted => exact .slnil
  | skipped _ _ ih => exact ih.cons _
  | tried _ _ _ _ ih => exact ih.cons_cons _
  | final _ _ _ => exact (List.nil_sublist _).cons_cons _

theorem performed (h : Tries server offered refused all x rs y) : Performed server x rs y := by
  induction h with
  | exhausted => rfl
  | skipped _ _ ih => exact ih
  | tried _ hr _ _ ih => exact ⟨by rw [hr], by rwa [hr]⟩
  | final _ hr _ => exact ⟨by rw [hr], by rw [hr]; rfl⟩

/-- A strategy is tried only if it may succeed by the reports before it. -/
theorem worthwhile (h : Tries server offered refused all x rs y) {past rest : List Report}
    {r : Report} (hrs : rs = past ++ r :: rest) :
    r.strategy.isWorthwhile (remainingAfter offered past) (refused ++ refusedIn past) = true := by
  induction h generalizing past with
  | exhausted => simp at hrs
  | skipped _ _ ih => exact ih hrs
  | tried hw _ _ _ ih =>
      cases past with
      | nil =>
          obtain ⟨rfl, -⟩ := List.cons.inj hrs
          simpa [remainingAfter, refusedIn] using hw
      | cons _ past =>
          obtain ⟨rfl, htail⟩ := List.cons.inj hrs
          rw [refusedIn_cons, ← List.append_assoc]
          exact ih htail
  | final hw _ _ =>
      cases past with
      | nil =>
          obtain ⟨rfl, -⟩ := List.cons.inj hrs
          simpa [remainingAfter, refusedIn] using hw
      | cons _ past => simp at hrs

theorem last (h : Tries server offered refused all x rs y) {past rest : List Report}
    {r : Report} (hrs : rs = past ++ r :: rest) (hr : r.IsFinal) : rest = [] := by
  induction h generalizing past with
  | exhausted => simp at hrs
  | skipped _ _ ih => exact ih hrs
  | tried _ _ hv _ ih =>
      cases past with
      | nil =>
          obtain ⟨rfl, -⟩ := List.cons.inj hrs
          exact absurd hr hv
      | cons _ past => exact ih (List.cons.inj hrs).2
  | final _ _ _ =>
      cases past with
      | nil => exact (List.cons.inj hrs).2.symm
      | cons _ past => simp at hrs

/-- A strategy is left out only if it cannot succeed by the reports that come before its turn, or if
the login was over by then. -/
theorem left_out (h : Tries server offered refused all x rs y) {before after : List Strategy}
    {s : Strategy} (hall : all = before ++ s :: after) (hs : s ∉ rs.map (·.strategy)) :
    (∃ r ∈ rs, r.IsFinal) ∨ ∃ past rest, rs = past ++ rest ∧
      (past.map (·.strategy)).Sublist before ∧ (rest.map (·.strategy)).Sublist after ∧
      s.isWorthwhile (remainingAfter offered past) (refused ++ refusedIn past) = false := by
  induction h generalizing before with
  | exhausted => simp at hall
  | @skipped offered refused t _ _ _ rs hw hrest ih =>
      cases before with
      | nil =>
          obtain ⟨rfl, rfl⟩ := List.cons.inj hall
          exact .inr ⟨[], rs, rfl, .slnil, hrest.sublist, by
            simpa [remainingAfter, refusedIn] using hw⟩
      | cons _ before =>
          obtain ⟨rfl, htail⟩ := List.cons.inj hall
          rcases ih htail hs with hf | ⟨past, rest, hrs, hp, hr, hn⟩
          · exact .inl hf
          · exact .inr ⟨past, rest, hrs, hp.cons _, hr, hn⟩
  | @tried _ _ t v _ _ _ _ _ _ _ _ _ ih =>
      cases before with
      | nil =>
          obtain ⟨rfl, -⟩ := List.cons.inj hall
          simp at hs
      | cons _ before =>
          obtain ⟨rfl, htail⟩ := List.cons.inj hall
          rcases ih htail (fun hm => hs (List.mem_cons_of_mem _ hm)) with
            ⟨r, hm, hf⟩ | ⟨past, rest, hrs, hp, hr, hn⟩
          · exact .inl ⟨r, List.mem_cons_of_mem _ hm, hf⟩
          · refine .inr ⟨⟨t, v⟩ :: past, rest, ?_, hp.cons_cons _, hr, ?_⟩
            · rw [hrs, List.cons_append]
            · rwa [refusedIn_cons, ← List.append_assoc]
  | final _ _ hv => exact .inl ⟨_, List.mem_singleton_self _, hv⟩

end Tries

/-! ### What attempts send -/

theorem Strategy.attempt_run (s : Strategy) (server : Server) (x : Exchange) :
    Attempt server x ⟨s, (s.run server x).1⟩ (s.run server x).2 := by
  cases s with
  | key key => exact .key rfl
  | password password => exact .password rfl
  | dialogue password =>
      obtain ⟨rounds, last, h⟩ : ∃ rounds last, Conversed server password roundLimit x
          .keyboardInteractive (x.dialogue server password) rounds last := exists_conversed rfl
      exact .dialogue h

/-- Each report is of an attempt that begins where the reports before it end. -/
theorem Performed.attempt (h : Performed server x rs y) {past rest : List Report} {r : Report}
    (hrs : rs = past ++ r :: rest) : ∃ u v, Performed server x past u ∧ Attempt server u r v ∧
      Performed server v rest y := by
  induction past generalizing x rs with
  | nil =>
      obtain rfl := hrs
      have hattempt := r.strategy.attempt_run server x
      rw [h.1] at hattempt
      exact ⟨x, _, rfl, hattempt, h.2⟩
  | cons first past ih =>
      obtain rfl := hrs
      obtain ⟨u, v, hpast, hattempt, hrest⟩ := ih h.2 rfl
      exact ⟨u, v, ⟨h.1, hpast⟩, hattempt, hrest⟩

/-! ### The password -/

/-- A refusal of a password. -/
def Turn.refusesPassword (t : Turn) : Bool :=
  match t.request, t.reply with
  | .password _, .ok (.verdict (.refused _ _)) => true
  | _, _ => false

/-- No password was refused so far. -/
def Exchange.Unrefused (x : Exchange) : Prop := ∀ t ∈ x.turns, t.refusesPassword = false

/-- Behind a password there are only strategies that send it again. -/
def Resubmitting (all : List Strategy) : Prop :=
  all.Pairwise fun s t => s.method = .password → t.resubmits? = some .password

theorem resubmitting_strategies (readKey : KeyReader) (c : Credentials) :
    Resubmitting (strategies readKey c) := by
  unfold Resubmitting strategies
  cases c.password <;> cases c.privateKey.bind fun text => readKey text c.passphrase <;>
    simp [Strategy.method, Strategy.resubmits?]

namespace Exchange

theorem Unrefused.note (h : x.Unrefused) {t : Turn} (ht : t.refusesPassword = false) :
    (x.note t.request t.reply).Unrefused := by
  intro u hu
  rcases List.mem_append.mp hu with hu | hu
  · exact h u hu
  · rwa [List.mem_singleton.mp hu]

theorem Unrefused.converse (h : x.Unrefused) {password : Option String} {rounds : Nat}
    {reply : Except Lapse Reply} : (converse server password rounds reply x).2.Unrefused := by
  induction rounds generalizing reply x with
  | zero => cases reply <;> exact h
  | succ rounds ih =>
      match reply with
      | .error _ | .ok (.verdict _) => exact h
      | .ok (.questions p) =>
          have hp : (x.passOn password p).Unrefused := by rwa [Unrefused, turns_passOn]
          exact ih (hp.note (t := ⟨.answers _, _⟩) rfl)

end Exchange

/-- What leaves no refused password behind: anything but a password that is refused. -/
theorem Strategy.unrefused_run {s : Strategy} {v : Except Lapse Verdict}
    (hr : s.run server x = (v, y)) (hx : x.Unrefused)
    (hs : s.method = .password → Report.remaining? ⟨s, v⟩ = none) : y.Unrefused := by
  obtain rfl : (s.run server x).2 = y := by rw [hr]
  obtain rfl : (s.run server x).1 = v := by rw [hr]
  cases s with
  | key k => exact hx.note (t := ⟨.publicKey k, _⟩) rfl
  | dialogue p => exact (hx.note (t := ⟨.keyboardInteractive, _⟩) rfl).converse
  | password p =>
      refine hx.note (t := ⟨.password p, _⟩) ?_
      let reply := server.decide (x.requests ++ [.password p])
      have hn : Report.remaining? ⟨.password p, reply⟩ = none := hs rfl
      change Turn.refusesPassword ⟨_, reply.map .verdict⟩ = _
      generalize reply = v at hn ⊢
      match v with
      | .error _ | .ok .accepted => rfl
      | .ok (.refused _ _) => simp [Report.remaining?] at hn

theorem Strategy.turns_run_password {s : Strategy} (hs : s.method = .password) (server : Server)
    (x : Exchange) : ∃ t, (s.run server x).2.turns = x.turns ++ [t] := by
  cases s with
  | password p => exact ⟨_, rfl⟩
  | key _ | dialogue _ => simp [Strategy.method] at hs

theorem Tries.eq_of_resubmits (h : Tries server offered refused all x rs y)
    (hr : .password ∈ refused) (hall : ∀ s ∈ all, s.resubmits? = some .password) :
    y = x := by
  induction h with
  | exhausted => rfl
  | skipped _ _ ih => exact ih hr fun s hs => hall s (List.mem_cons_of_mem _ hs)
  | tried hw _ _ _ _ | final hw _ _ =>
      simp [Strategy.isWorthwhile, hall _ List.mem_cons_self, hr] at hw

/-- Nothing is sent any more after a password was refused. -/
theorem Tries.silent_after_refusal (h : Tries server offered refused all x rs y)
    (hall : Resubmitting all) (hx : x.Unrefused) {past rest : List Turn} {t : Turn}
    (hy : y.turns = past ++ t :: rest) (ht : t.refusesPassword = true) : rest = [] := by
  have hnone : ∀ {z : Exchange}, z.Unrefused → z.turns = past ++ t :: rest → rest = [] := by
    intro z hz htz
    simp [hz t (by simp [htz])] at ht
  induction h with
  | exhausted => exact hnone hx hy
  | skipped _ _ ih => exact ih hall.tail hx hy
  | @tried _ _ s v all x z _ _ _ hr _ hrest ih =>
      by_cases hs : s.method = .password → Report.remaining? ⟨s, v⟩ = none
      · exact ih hall.tail (s.unrefused_run hr hx hs) hy
      · -- the password is refused, and whatever is left would send it again
        obtain ⟨hm, hv⟩ := Classical.not_imp.mp hs
        obtain ⟨remaining, hv⟩ := Option.ne_none_iff_exists'.mp hv
        have hrefused : refusedIn [⟨s, v⟩] = [.password] := by simp [refusedIn, hv, hm]
        obtain ⟨hsend, -⟩ := List.pairwise_cons.mp hall
        obtain rfl := hrest.eq_of_resubmits (by simp [hrefused]) fun t ht => hsend t ht hm
        obtain ⟨u, hu⟩ := s.turns_run_password hm server x
        rw [hr] at hu
        rcases List.eq_nil_or_concat rest with rfl | ⟨front, last, rfl⟩
        · rfl
        · rw [hu, List.concat_eq_append, ← List.cons_append, ← List.append_assoc] at hy
          simp [hx t (by simp [(List.append_inj' hy rfl).1])] at ht
  | @final _ _ s v _ x y _ hr hv =>
      refine hnone (s.unrefused_run hr hx fun _ => ?_) hy
      rcases hv with rfl | rfl <;> rfl

/-! ### The whole login -/

theorem Exchange.turns_prefix_converse (password : Option String) (rounds : Nat)
    (reply : Except Lapse Reply) (x : Exchange) :
    x.turns <+: (converse server password rounds reply x).2.turns := by
  induction rounds generalizing reply x with
  | zero => cases reply <;> exact List.prefix_refl _
  | succ rounds ih =>
      match reply with
      | .error _ | .ok (.verdict _) => exact List.prefix_refl _
      | .ok (.questions p) =>
          refine List.IsPrefix.trans ?_ (ih _ _)
          rw [← x.turns_passOn password p]
          exact List.prefix_append _ _

theorem Strategy.turns_prefix_run (s : Strategy) (server : Server) (x : Exchange) :
    x.turns <+: (s.run server x).2.turns := by
  cases s with
  | key _ | password _ => exact List.prefix_append _ _
  | dialogue p =>
      refine List.IsPrefix.trans ?_ (Exchange.turns_prefix_converse p roundLimit _ _)
      exact List.prefix_append _ _

theorem Performed.turns_prefix (h : Performed server x rs y) : x.turns <+: y.turns := by
  induction rs generalizing x with
  | nil =>
      obtain rfl : y = x := h
      exact List.prefix_refl _
  | cons r rs ih => exact (r.strategy.turns_prefix_run server x).trans (ih h.2)

theorem Strategy.isWorthwhile_eq_true_iff {s : Strategy} : s.isWorthwhile offered refused = true ↔
    s.method ∈ offered ∧ ∀ m, s.resubmits? = some m → m ∉ refused := by
  cases h : s.resubmits? <;> simp [isWorthwhile, h]

theorem Strategy.isWorthwhile_eq_false_iff {s : Strategy} :
    s.isWorthwhile offered refused = false ↔
      (s.method ∈ offered → ∃ m, s.resubmits? = some m ∧ m ∈ refused) := by
  cases h : s.resubmits? <;> simp [isWorthwhile, h]

theorem sublist_methods (readKey : KeyReader) (c : Credentials) :
    ((strategies readKey c).map Strategy.method).Sublist
      [.publicKey, .password, .keyboardInteractive] := by
  unfold strategies
  cases c.password <;> cases c.privateKey.bind fun text => readKey text c.passphrase <;>
    simp [Strategy.method]

theorem key_mem_strategies {readKey : KeyReader} {c : Credentials} {key : PrivateKey}
    (h : .key key ∈ strategies readKey c) :
    ∃ text, c.privateKey = some text ∧ readKey text c.passphrase = some key := by
  simpa [strategies, Option.bind_eq_some_iff] using h

theorem password_mem_strategies {readKey : KeyReader} {c : Credentials} {password : String}
    (h : .password password ∈ strategies readKey c) : c.password = some password := by
  simpa [strategies, Option.map_eq_some_iff, Option.bind_eq_some_iff] using h

/-- A login begins with a request without credentials, and comes to an end with it unless the server
refuses it. Then the private key if it can be read, the password if there is one and a dialogue are
tried in this order, each once at most and only if the most recent refusal names it; one of them is
left out only if it is not named, or would send a refused password again, or comes too late. What
each of them sends is its own secret or dialogue, and the server's reply decides on it. Nothing
is tried after a success, and nothing is sent after the password was refused. The login succeeds if
one of them does; else it fails as the last one that was cut short, if any was. -/
theorem authenticate_tries (server : Server) (readKey : KeyReader) (c : Credentials) :
    let result := authenticate server readKey c
    let greeted : Exchange := ⟨[⟨.none, (server.decide [.none]).map .verdict⟩], []⟩
    match server.decide [.none] with
    | .error lapse => result = (.error lapse, greeted)
    | .ok .accepted => result = (.ok true, greeted)
    | .ok (.refused offered _) =>
        greeted.turns <+: result.2.turns ∧
        ∃ rs, Performed server greeted rs result.2 ∧
          (∀ past r rest, rs = past ++ r :: rest → ∃ x y, Performed server greeted past x ∧
            Attempt server x r y ∧ Performed server y rest result.2) ∧
          (rs.map (·.strategy)).Sublist (strategies readKey c) ∧
          (rs.map (·.strategy.method)).Sublist [.publicKey, .password, .keyboardInteractive] ∧
          (∀ r ∈ rs, ∀ key, r.strategy = .key key →
            ∃ text, c.privateKey = some text ∧ readKey text c.passphrase = some key) ∧
          (∀ r ∈ rs, ∀ password, r.strategy = .password password → c.password = some password) ∧
          (∀ past r rest, rs = past ++ r :: rest →
            r.strategy.method ∈ remainingAfter offered past ∧ (r.IsFinal → rest = [])) ∧
          (∀ before s after, strategies readKey c = before ++ s :: after →
            s ∉ rs.map (·.strategy) → (∃ r ∈ rs, r.IsFinal) ∨
              ∃ past rest, rs = past ++ rest ∧ (past.map (·.strategy)).Sublist before ∧
                (rest.map (·.strategy)).Sublist after ∧
                (s.method ∈ remainingAfter offered past →
                  ∃ m, s.resubmits? = some m ∧ m ∈ refusedIn past)) ∧
          (∀ past t rest, result.2.turns = past ++ t :: rest → t.refusesPassword = true →
            rest = []) ∧
          (result.1 = .ok true ↔ ∃ r ∈ rs, r.verdict = .ok .accepted) ∧
          (result.1 ≠ .ok true →
            result.1 = match (rs.filterMap Report.lapse?).getLast? with
              | some lapse => .error lapse
              | none => .ok false) := by
  intro result greeted
  have hask : Exchange.ask {} server .none = (server.decide [.none], greeted) := rfl
  cases hd : server.decide [.none] with
  | error lapse => simp only [result, authenticate, authenticateWith, hask, hd]
  | ok v =>
      cases v with
      | accepted => simp only [result, authenticate, authenticateWith, hask, hd]
      | refused offered partly =>
          have hr : result = tryAll server offered [] none (strategies readKey c) greeted := by
            simp only [result, authenticate, authenticateWith, hask, hd]
          obtain ⟨rs, ht, hc⟩ :=
            tryAll_tries server offered [] none (strategies readKey c) greeted
          rw [← hr] at ht hc
          have hsub := ht.sublist
          have hmem : ∀ r ∈ rs, r.strategy ∈ strategies readKey c := fun r h =>
            hsub.subset (List.mem_map_of_mem h)
          have hgreeted : greeted.Unrefused := by
            simp [greeted, Exchange.Unrefused, Turn.refusesPassword]
          refine ⟨ht.performed.turns_prefix, rs, ht.performed, fun _ _ _ => ht.performed.attempt,
            hsub, ?_, ?_, ?_, ?_, ?_, ?_, ?_, ?_⟩
          · have hmethods := (hsub.map Strategy.method).trans (sublist_methods readKey c)
            rwa [List.map_map] at hmethods
          · exact fun r h key hk => key_mem_strategies (hk ▸ hmem r h)
          · exact fun r h password hp => password_mem_strategies (hp ▸ hmem r h)
          · intro past r rest hrs
            have hw := ht.worthwhile hrs
            exact ⟨(Strategy.isWorthwhile_eq_true_iff.mp hw).1, ht.last hrs⟩
          · intro before s after hall hs
            rcases ht.left_out hall hs with hf | ⟨past, rest, hrs, hp, hrest, hw⟩
            · exact .inl hf
            · exact .inr ⟨past, rest, hrs, hp, hrest, Strategy.isWorthwhile_eq_false_iff.mp hw⟩
          · exact fun past t rest =>
              ht.silent_after_refusal (resubmitting_strategies readKey c) hgreeted
          · rw [hc, concluded_eq_true_iff]
          · rw [hc, ne_eq, concluded_eq_true_iff]
            intro hn
            simp [concluded, hn]

end TerminalGateway.Auth

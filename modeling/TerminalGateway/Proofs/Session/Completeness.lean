import TerminalGateway.Http.Frame
import TerminalGateway.Proofs.Credentials
import TerminalGateway.Proofs.Session.Vetting

/-!
What the credentials of a connection hold. They always have a secret and a port that fits; which
of the other parts may be missing depends on the way on which they came.
-/

namespace TerminalGateway

namespace Session

variable {ρ : Type} {s t : Session ρ}

/-! ### Messages that were handled -/

/-- Between two sessions no message was taken up. -/
structure Deaf (s t : Session ρ) : Prop where
  backlog : t.backlog = s.backlog
  handled : ∀ m, .handled m ∈ t.record → .handled m ∈ s.record

theorem Continues.deaf (h : Continues s t) : Deaf s t := by
  obtain ⟨es, hr, he⟩ := h.record
  refine ⟨h.backlog, fun m hm => ?_⟩
  rw [hr] at hm
  exact (List.mem_append.mp hm).resolve_right (he m)

variable [Remote ρ]

/-- Every message that a session handled, or keeps for later, came. -/
def Heard (σs : List Stimulus) (s : Session ρ) : Prop :=
  ∀ m, .handled m ∈ s.record ∨ m ∈ s.backlog → .message m ∈ σs

omit [Remote ρ] in
theorem Heard.deaf {σs : List Stimulus} (h : Heard σs s) (hd : Deaf s t) : Heard σs t := by
  rintro m (hm | hm)
  · exact h m (.inl (hd.handled m hm))
  · rw [hd.backlog] at hm
    exact h m (.inr hm)

omit [Remote ρ] in
theorem Heard.handle {σs : List Stimulus} (h : Heard σs s) {m : Inbound}
    (hm : .message m ∈ σs) : Heard σs (s.note (.handled m)) := by
  rintro m' (hm' | hm')
  · rw [record_note, List.mem_append, List.mem_singleton] at hm'
    rcases hm' with hm' | heq
    · exact h m' (.inl hm')
    · obtain rfl := Entry.handled.inj heq
      exact hm
  · exact h m' (.inr hm')

theorem Heard.turns {σs : List Stimulus} (h : Heard σs s) {σ : Stimulus} (hσ : σ ∈ σs)
    (ht : Turns s σ t) : Heard σs t := by
  cases ht with
  | kept _ hk => exact h.deaf hk.continues.deaf
  | @queued m _ =>
      rintro m' (hm | hm)
      · exact h m' (.inl hm)
      · rcases List.mem_append.mp hm with hm | hm
        · exact h m' (.inr hm)
        · obtain rfl := List.mem_singleton.mp hm
          exact hσ
  | heard _ ha => exact (h.handle hσ).deaf ha.continues.deaf
  | @resumed m rest _ _ hb ha =>
      have hrest : Heard σs ({ s with backlog := rest } : Session ρ) := by
        rintro m' (hm | hm)
        · exact h m' (.inl hm)
        · exact h m' (.inr (by rw [hb]; exact List.mem_cons_of_mem m hm))
      have hm : .message m ∈ σs := h m (.inr (by rw [hb]; exact List.mem_cons_self))
      exact (hrest.handle hm).deaf ha.continues.deaf
  | resolved _ hv => exact h.deaf hv.continues.deaf

/-- A session makes no messages up. -/
theorem heard_run (config : Config) (remote : ρ) (cached : Option Credentials)
    (env : Environment.Pairs) (σs : List Stimulus) :
    Heard σs ((start config remote cached env).run σs) := by
  refine (coherent_start config remote cached env).run_induction (by simp [Heard, start]) ?_ ?_
  · intro t h
    exact h
  · intro t σ t' hσ _ _ h hm
    exact h.turns hσ hm.turns

/-- Each connection is for the login of a message that came, or else for the one of the
beginning. -/
theorem origin_of_connect {config : Config} {remote : ρ} {cached : Option Credentials}
    {env : Environment.Pairs} {σs : List Stimulus} {c : Credentials} {outcome : Outcome}
    (h : .called (.connect c) outcome ∈ ((start config remote cached env).run σs).record) :
    c.hasSecret = true ∧
      ((∃ r, .message (.ok (.auth r)) ∈ σs ∧ c = r.credentials) ∨ cached = some c) := by
  have hg := guarded_run config remote cached env σs
  have hh := heard_run config remote cached env σs
  obtain ⟨past, rest, hr, since, check, hpast, ⟨before, r, parting, hsince, -, hc⟩, -⟩ :=
    hg.connects.of_mem h
  refine ⟨hc.secret, ?_⟩
  rcases hc.source with heq | ⟨-, hcached⟩
  · refine .inl ⟨r, hh _ (.inl ?_), heq⟩
    simp [hr, hpast, hsince]
  · exact .inr hcached

/-- What the login of a connection may lack, by the way on which it came. -/
theorem connect_complete_iff {vars : Variables} {config : Config}
    (hconf : Config.ofVariables vars = .ok config) {queryText : List Char}
    {query : Http.SessionQuery} (hq : Http.SessionQuery.ofText? queryText = some query)
    {authorizations : List String} {remote : ρ} {env : Environment.Pairs} {σs : List Stimulus}
    (hσ : ∀ m, .message m ∈ σs → ∃ frame, Http.Frame.message? frame = some m)
    {c : Credentials} {outcome : Outcome}
    (h : .called (.connect c) outcome ∈ ((start config remote
      (Http.requestCredentials? authorizations query config.ssh) env).run σs).record) :
    c.hasSecret = true ∧ c.port ≤ 65535 ∧
    ((∃ text f r raw, ClientMessage.authFields? text = some f ∧ f.check = .ok r ∧
        .message (.ok (.auth r)) ∈ σs ∧ c = r.credentials ∧ f.host = some raw ∧
        (c.Complete ↔ ¬ Credentials.IsHollow raw)) ∨
      ∃ authorization user password raw, authorizations.head? = some authorization ∧
        Http.basicLogin? authorization = some (user, password) ∧
        Http.requestCredentials? authorizations query config.ssh = some c ∧
        Http.namedHost? query config.ssh = some raw ∧
        (c.Complete ↔ user ≠ "" ∧ Text.isAllBlank raw.toList = false ∧
          ¬ Credentials.IsHollow raw ∧
          (query.port.getD 0 ≠ 0 ∨ config.ssh.defaultPort ≠ 0))) := by
  have hqp := Http.SessionQuery.port_le hq
  have hdp := Config.defaultPort_le hconf
  obtain ⟨hs, ⟨r, hr, rfl⟩ | hcached⟩ := origin_of_connect h
  · obtain ⟨frame, hframe⟩ := hσ _ hr
    obtain ⟨text, htext⟩ : ∃ text, ClientMessage.ofText text = .ok (.auth r) := by
      cases frame with
      | text text => exact ⟨text, by simpa [Http.Frame.message?] using hframe⟩
      | binary _ | ping _ | pong _ | close => simp [Http.Frame.message?] at hframe
    obtain ⟨f, hf, hcheck⟩ := ClientMessage.authFields?_of_ofText htext
    obtain ⟨-, raw, -, -, hh, -, -, -, -, hle⟩ := AuthFields.check_eq_ok hcheck
    exact ⟨hs, hle, .inl ⟨text, f, r, raw, hf, hcheck, hr, rfl, hh,
      AuthFields.complete_iff hcheck hs hh⟩⟩
  · obtain ⟨authorization, user, password, raw, ha, hl, hh, hc⟩ :=
      Http.requestCredentials?_eq_some hcached
    refine ⟨hs, ?_, .inr ⟨authorization, user, password, raw, ha, hl, hcached, hh,
      Http.complete_iff hqp hdp hs hc⟩⟩
    rw [hc]
    exact Http.port_getD_le hqp hdp

/-- A login without a secret, which leaves the one of the request to be used. -/
def secretlessText : String :=
  "\x7b\"type\":\"auth\",\"payload\":\x7b\"username\":\"user\",\"host\":\"h\"\x7d\x7d"

def namelessLogin : Credentials := ⟨"h", 22, "", some "pw", none, none⟩

/-- The request names no user: `OnB3` stands for `:pw`. -/
theorem connect_complete_iff_nameless :
    let σs := [Stimulus.message (ClientMessage.ofText secretlessText)]
    let s := (start Config.standard ({} : Script)
      (Http.requestCredentials? ["Basic OnB3"] { host := some "h" } Config.standard.ssh) []).run σs
    Config.ofVariables [] = .ok Config.standard ∧
      Http.SessionQuery.ofText? "host=h".toList = some { host := some "h" } ∧
      (∀ m, .message m ∈ σs → ∃ frame, Http.Frame.message? frame = some m) ∧
      .called (.connect namelessLogin) (.ok ()) ∈ s.record ∧
      namelessLogin.hasSecret = true ∧ namelessLogin.port ≤ 65535 := by
  intro σs s
  have hq : Http.SessionQuery.ofText? "host=h".toList = some { host := some "h" } := by
    decide +kernel
  have hσ : ∀ m, .message m ∈ σs → ∃ frame, Http.Frame.message? frame = some m := by
    intro m hm
    have hm := Stimulus.message.inj (List.mem_singleton.mp hm)
    exact ⟨.text secretlessText, by rw [hm, Http.Frame.message?]⟩
  have h : .called (.connect namelessLogin) (.ok ()) ∈ s.record := by decide +kernel
  obtain ⟨hs, hle, -⟩ := connect_complete_iff Config.ofVariables_nil hq hσ h
  exact ⟨Config.ofVariables_nil, hq, hσ, h, hs, hle⟩

def hollowText : String :=
  "\x7b\"type\":\"auth\",\"payload\":\x7b\"username\":\"user\",\"host\":\"[ ]\"," ++
    "\"password\":\"pw\"\x7d\x7d"

def hollowLogin : Credentials := ⟨" ", 22, "user", some "pw", none, none⟩

/-- A host that is blank without its brackets is connected to. -/
theorem connect_hollow :
    .called (.connect hollowLogin) (.ok ()) ∈ ((start Config.standard ({} : Script) none []).run
      [.message (ClientMessage.ofText hollowText)]).record ∧ ¬ hollowLogin.Complete :=
  ⟨by decide +kernel, fun h => absurd h.host (by decide +kernel)⟩

end Session

end TerminalGateway

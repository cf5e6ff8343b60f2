import TerminalGateway.Proofs.Config
import TerminalGateway.Proofs.Connection.Requests
import TerminalGateway.Proofs.Session.Operations
import TerminalGateway.Proofs.Session.Troubles

/-!
What a server is asked on the channels of a session. Each channel is opened for one message, by a
plan that this message, the environment of the client, the terminal type in force and the settings
of the operator determine; so no variable reaches a server that the operator does not allow.
-/

namespace TerminalGateway.Session

/-! ### The plan of a channel -/

/-- The terminal type in force after a message, given the one before it. -/
def termAfter {ρ : Type} (term : String) (x : Session ρ × Inbound) : String :=
  match x.2 with
  | .ok (.auth r) => r.term.getD term
  | .ok (.terminal r) => if x.1.phase = .connected then r.term.getD term else term
  | _ => term

/-- What is asked on the channel that a message asks for, in order. -/
def plan? (config : Config) (env : Environment.Pairs) (term : String) :
    Inbound → Option (List ChannelRequest)
  | .ok (.terminal r) =>
      some (Connection.plan (Environment.restrict config.ssh.envAllowlist env)
        (some ⟨r.term.getD term, r.dimensions⟩) .shell)
  | .ok (.exec r) =>
      some (Connection.plan (Environment.restrict config.ssh.envAllowlist (env ++ r.env))
        (if r.pty then some ⟨r.term.getD term, r.dimensions⟩ else none) (.exec r.command))
  | _ => none

section

variable {ρ : Type} [Remote ρ] {s t : Session ρ}

/-- What the plan of a channel depends on, besides its message. -/
def bearings (s : Session ρ) : Config × Environment.Pairs × String := (s.config, s.env, s.term)

omit [Remote ρ] in
theorem termAfter_of_refused {m : Inbound} (h : (s.objection? m).isSome ∨ s.ignores m = true)
    (hm : ∀ r, m ≠ .ok (.auth r)) (term : String) : termAfter term (s, m) = term := by
  unfold termAfter
  split
  · rename_i r heq
    exact absurd heq (hm r)
  · rename_i r heq
    simp only at heq
    subst heq
    refine if_neg fun hp => ?_
    have hp : s.phase = .connected := hp
    simp [objection?, ignores, hp] at h
  · rfl

theorem Vets.bearings {c : Credentials} {found : Except String (List Net.Address)}
    (h : Vets s c found t) : t.isClosing = true ∨ t.bearings = s.bearings := by
  cases h with
  | allowed _ => exact .inr rfl
  | refused _ => exact .inl (isClosing_ended _)

theorem Approaches.bearings {c : Credentials} (h : Approaches s c t) :
    t.isClosing = true ∨ t.bearings = s.bearings := by
  cases h with
  | unrestricted _ | named _ _ => exact .inr rfl
  | literal _ _ hv => exact hv.bearings

/-- A session that goes on after a message has the terminal type that the message named. -/
theorem Answers.bearings {m : Inbound} (h : Answers s m t) :
    t.isClosing = true ∨ t.bearings = (s.config, s.env, termAfter s.term (s, m)) := by
  cases h with
  | objected ho =>
      rw [termAfter_of_refused (.inl (by simp [ho])) (fun r hr => by simp [hr, objection?] at ho)]
      exact .inr rfl
  | ignored hi =>
      rw [termAfter_of_refused (.inr hi) (fun r hr => by simp [hr, ignores] at hi)]
      exact .inr rfl
  | @authenticating r c _ _ ha =>
      refine ha.bearings.imp_right fun hb => hb.trans ?_
      unfold Session.parted
      split <;> rfl
  | @shellOpened r _ hp _ =>
      refine .inr ?_
      simp only [termAfter, hp, if_true]
      rfl
  | execOpened _ _ | resized _ | wrote _ _ | replayed _ _ _ _ | forgot => exact .inr rfl
  | shellFailed _ _ | execFailed _ _ | resizeFailed _ | writeFailed _ _ =>
      exact .inl (isClosing_broken _ _)
  | unauthenticated _ | replayFailed _ _ _ _ | reauthed _ | disconnected =>
      exact .inl (isClosing_ended _)

theorem Receives.bearings {e : Option StreamEvent} (h : Receives s e t) :
    t.isClosing = true ∨ t.bearings = s.bearings := by
  cases h with
  | output | extended | exitStatus _ | exitSignal _ | execClosed _ _ _ => exact .inr rfl
  | shellSignalled _ _ _ _ | failed => exact .inl (isClosing_broken _ _)
  | shellClosed _ _ _ _ => exact .inl (isClosing_ended _)

theorem Moves.bearings {σ : Stimulus} (h : Moves s σ t) (hc : s.isClosing = false) :
    t.isClosing = true ∨ t.bearings =
      (s.config, s.env, ((s.dispatched? σ).toList.map (s, ·)).foldl termAfter s.term) := by
  have haside : s.dispatched? σ = none → t.isClosing = true ∨ t.bearings = s.bearings →
      t.isClosing = true ∨ t.bearings =
        (s.config, s.env, ((s.dispatched? σ).toList.map (s, ·)).foldl termAfter s.term) := by
    intro hd hb
    rw [hd]
    exact hb
  cases h with
  | answered hi ha =>
      simp only [dispatched?, hi, if_true]
      exact ha.bearings
  | @resumed m rest _ hl ha hb hans =>
      rw [dispatched?_resume hc hl ha hb]
      exact hans.bearings
  | queued _ ha => exact haside (by simp [dispatched?, isListening, ha]) (.inr rfl)
  | abandoned _ _ | prompted _ _ | connected _ _ _ | counted _ | expired _ _ =>
      exact haside rfl (.inr rfl)
  | rebuffed _ _ _ => exact .inl (isClosing_rebuffed _ _ _)
  | givenUp _ _ _ | departed _ => exact .inl (isClosing_ended _)
  | resolved _ hv => exact haside rfl hv.bearings
  | received _ _ hr => exact haside rfl hr.bearings

/-- The terminal type of a session that goes on is the one that its messages lead to. -/
theorem Coherent.bearings_run (h : s.Coherent) (σs : List Stimulus) :
    (s.run σs).isClosing = true ∨ (s.run σs).bearings =
      (s.config, s.env, (s.dispatches σs).foldl termAfter s.term) := by
  induction σs generalizing s with
  | nil => exact .inr rfl
  | cons σ σs ih =>
      have hstep : (s.step σ).isClosing = true ∨ (s.step σ).bearings =
          (s.config, s.env, ((s.dispatched? σ).toList.map (s, ·)).foldl termAfter s.term) := by
        by_cases hσ : σ = .elapse
        · rw [hσ, step_elapse]
          exact .inr rfl
        rcases h.heeded_cases hσ with ⟨hh, hs⟩ | ⟨ho, hm⟩
        · rw [hs, dispatched?_eq_none hh]
          exact .inr rfl
        · exact hm.bearings ho.goesOn
      rcases hstep with hc | hb
      · obtain ⟨n, hn⟩ := run_closing hc σs
        refine .inl ?_
        rw [show s.run (σ :: σs) = (s.step σ).run σs from rfl, hn]
        exact hc
      · have hrest := ih (h.step σ)
        simp only [Session.bearings, Prod.mk.injEq] at hb
        obtain ⟨hconfig, henv, hterm⟩ := hb
        rw [hconfig, henv, hterm] at hrest
        rwa [dispatches, List.foldl_append]

end

/-! ### What moves ask for -/

variable {s t u : Session Connection}

/-- A session whose connection opened no channel, or opened one for the message that was handled. -/
def Asks (s : Session Connection) (m? : Option Inbound) (t : Session Connection) : Prop :=
  s.remote.Uses t.remote ∨ ∃ m o plan d, m? = some m ∧ s.operation? m = some o ∧
    plan? s.config s.env s.term m = some plan ∧ s.remote.Opens plan d o.result.2 ∧
      d.Uses t.remote

theorem uses_broken {c : Connection} (h : c.Uses s.remote) (f : Failure) :
    c.Uses (s.broken f).remote := by
  unfold Session.broken
  split <;> exact h.trans (.hangUp s.remote)

theorem uses_parted (s : Session Connection) : s.remote.Uses s.parted.remote := by
  unfold Session.parted
  split
  · exact .hangUp s.remote
  · exact .refl _

theorem Vets.uses {c : Credentials} {found : Except String (List Net.Address)}
    (h : Vets s c found t) : s.remote.Uses t.remote := by
  cases h with
  | allowed _ => exact .begin s.remote c
  | refused _ => exact .hangUp s.remote

theorem Approaches.uses {c : Credentials} (h : Approaches s c t) : s.remote.Uses t.remote := by
  cases h with
  | unrestricted _ => exact .begin s.remote c
  | literal _ _ hv => exact hv.uses
  | named _ _ => exact .refl _

theorem Asks.shell {r : TerminalRequest} (hp : s.phase = .connected)
    (hu : (s.remote.shell ⟨(s.fitted r).term, r.dimensions⟩ (s.streamEnv [])).1.Uses t.remote) :
    Asks s (some (.ok (.terminal r))) t := by
  refine .inr ⟨_, _, _, _, rfl, by rw [operation?, if_pos hp], rfl, ?_, hu⟩
  rw [← streamEnv_nil]
  exact Connection.openStream_opens ..

theorem Asks.exec {r : ExecRequest} (hp : s.phase = .connected)
    (hu : (s.remote.exec r.command (s.execTerminal r) (s.streamEnv r.env)).1.Uses t.remote) :
    Asks s (some (.ok (.exec r))) t :=
  .inr ⟨_, _, _, _, rfl, by rw [operation?, if_pos hp], rfl, Connection.openStream_opens .., hu⟩

theorem Answers.asks {m : Inbound} (h : Answers s m t) : Asks s (some m) t := by
  have hcalled : ∀ {result : Connection × Outcome} {remote outcome} {c : Connection},
      result = (remote, outcome) → remote.Uses c → result.1.Uses c := by
    rintro _ remote outcome c rfl hu
    exact hu
  have hwrite : ∀ {bytes remote outcome}, Remote.write s.remote bytes = (remote, outcome) →
      s.remote.Uses remote := by
    intro bytes remote outcome heq
    obtain rfl : (s.remote.write bytes).1 = remote := congrArg Prod.fst heq
    exact .write s.remote bytes
  have hresize : ∀ {d remote outcome}, Remote.resize s.remote d = (remote, outcome) →
      s.remote.Uses remote := by
    intro d remote outcome heq
    obtain rfl : (s.remote.resize d).1 = remote := congrArg Prod.fst heq
    exact .resize s.remote d
  cases h with
  | objected _ | ignored _ | forgot => exact .inl (.refl _)
  | unauthenticated _ => exact .inl ((uses_parted s).trans (.hangUp _))
  | @authenticating r c _ _ ha => exact .inl ((uses_parted s).trans ha.uses)
  | @shellOpened r remote hp h =>
      exact .shell hp (hcalled h (.refl _))
  | @shellFailed r remote f hp h =>
      exact .shell hp (hcalled h (uses_broken (.refl remote) f))
  | @execOpened r remote hp h =>
      exact .exec hp (hcalled h (.refl _))
  | @execFailed r remote f hp h =>
      exact .exec hp (hcalled h (uses_broken (.refl remote) f))
  | resized h => exact .inl (hresize h)
  | resizeFailed h => exact .inl (uses_broken (hresize h) _)
  | wrote _ h | replayed _ _ _ h => exact .inl (hwrite h)
  | writeFailed _ h => exact .inl (uses_broken (hwrite h) _)
  | replayFailed _ _ _ h => exact .inl ((hwrite h).trans (.hangUp _))
  | reauthed _ | disconnected => exact .inl (.hangUp _)

theorem Receives.uses {e : Option StreamEvent} (h : Receives s e t) : s.remote.Uses t.remote := by
  cases h with
  | output | extended | exitStatus _ | exitSignal _ => exact .refl _
  | execClosed _ _ _ => exact .closeStream s.remote
  | shellSignalled _ _ _ _ | failed => exact uses_broken (.refl s.remote) _
  | shellClosed _ _ _ _ => exact .hangUp s.remote

theorem Moves.asks {σ : Stimulus} (h : Moves s σ t) (hc : s.isClosing = false) :
    Asks s (s.dispatched? σ) t := by
  have hsettle : ∀ {remote outcome}, Remote.settle s.remote = (remote, outcome) →
      s.remote.Uses remote := by
    intro remote outcome heq
    obtain rfl : s.remote.settle.1 = remote := congrArg Prod.fst heq
    exact .settle s.remote
  cases h with
  | answered hi ha =>
      simp only [dispatched?, hi, if_true]
      exact ha.asks
  | resumed hl ha hb hans =>
      rw [dispatched?_resume hc hl ha hb]
      exact hans.asks
  | queued _ _ | abandoned _ _ | prompted _ _ | counted _ => exact .inl (.refl _)
  | connected _ _ h => exact .inl (hsettle h)
  | @rebuffed c remote f _ _ h =>
      obtain ⟨_, _, _, -, -, hr⟩ := (s.settled remote (.error f)).exists_rebuffed c f
      rw [hr]
      exact .inl ((hsettle h).trans (.hangUp _))
  | givenUp _ _ h => exact .inl ((hsettle h).trans (.hangUp _))
  | resolved _ hv => exact .inl hv.uses
  | departed _ => exact .inl (.hangUp _)
  | received _ _ hr => exact .inl hr.uses
  | expired _ _ => exact .inl (.closeStream _)

theorem Coherent.asks (h : s.Coherent) (σ : Stimulus) : Asks s (s.dispatched? σ) (s.step σ) := by
  rcases h.step_cases σ with ⟨rfl, hs⟩ | hs | ⟨ho, hm⟩
  · rw [hs]
    exact .inl (.refl _)
  · rw [hs]
    exact .inl (.refl _)
  · exact hm.asks ho.goesOn

/-! ### Runs -/

/-- Channel `n` was opened in a run for a message, by the plan that follows from what came before
it. -/
def OpenedFor (begun : Session Connection) (σs : List Stimulus) (n : Nat)
    (plan : List ChannelRequest) (outcome : Outcome) : Prop :=
  ∃ past σ rest m remote call, σs = past ++ σ :: rest ∧
    (begun.run past).remote.channels = n ∧
    (begun.run past).dispatched? σ = some m ∧
    (begun.run past).operation? m = some ⟨call, remote, outcome⟩ ∧
    plan? begun.config begun.env ((begun.dispatches past).foldl termAfter begun.term) m = some plan

theorem OpenedFor.concat {begun : Session Connection} {σs : List Stimulus} {n : Nat}
    {plan : List ChannelRequest} {outcome : Outcome} (h : OpenedFor begun σs n plan outcome)
    (more : List Stimulus) : OpenedFor begun (σs ++ more) n plan outcome := by
  obtain ⟨past, σ, rest, m, remote, call, rfl, h⟩ := h
  exact ⟨past, σ, rest ++ more, m, remote, call, by simp, h⟩

theorem run_concat (s : Session Connection) (σs : List Stimulus) (σ : Stimulus) :
    s.run (σs ++ [σ]) = (s.run σs).step σ := by
  simp [run]

theorem Coherent.conducts_step {begun : Session Connection} (hb : begun.Coherent)
    {past : List Stimulus} (h : (begun.run past).remote.Conducts (OpenedFor begun past))
    (σ : Stimulus) :
    (begun.run (past ++ [σ])).remote.Conducts (OpenedFor begun (past ++ [σ])) := by
  have hkept := h.mono fun n plan outcome (ho : OpenedFor begun past n plan outcome) =>
    ho.concat [σ]
  rw [run_concat]
  rcases (hb.run past).asks σ with hu | ⟨m, o, plan, d, hm, ho, hp, hopens, hu⟩
  · exact hkept.uses hu
  · have hbearings := (hb.bearings_run past).resolve_left (by simp [isClosing_of_dispatched hm])
    simp only [Session.bearings, Prod.mk.injEq] at hbearings
    obtain ⟨hconfig, henv, hterm⟩ := hbearings
    rw [hconfig, henv, hterm] at hp
    refine (hkept.opens hopens ?_).uses hu
    exact ⟨past, σ, [], m, o.result.1, o.call, rfl, rfl, hm, ho, hp⟩

theorem Coherent.conducts_run {begun : Session Connection} (hb : begun.Coherent)
    {past : List Stimulus} (h : (begun.run past).remote.Conducts (OpenedFor begun past))
    (σs : List Stimulus) :
    (begun.run (past ++ σs)).remote.Conducts (OpenedFor begun (past ++ σs)) := by
  induction σs generalizing past with
  | nil => simpa using h
  | cons σ σs ih =>
      have hnext := ih (hb.conducts_step h σ)
      rwa [List.append_assoc] at hnext

/-! ### Variables -/

theorem mem_restrict {allowlist : List String} {pairs : Environment.Pairs} {name value : String}
    (h : (name, value) ∈ Environment.restrict allowlist pairs) :
    (allowlist = [] ∨ name ∈ allowlist) ∧ Environment.isName name.toList = true ∧
      name.utf8ByteSize ≤ 32 ∧ value.utf8ByteSize ≤ 512 := by
  have hallowed := (List.mem_filter.mp (List.mem_of_mem_take h)).2
  simp only [Environment.isAllowed, Bool.and_eq_true, Bool.or_eq_true, decide_eq_true_eq,
    List.isEmpty_iff, List.contains_iff_mem, and_assoc] at hallowed
  exact hallowed

/-- The plan for a message sets no variables but those that the settings let through. -/
theorem plan?_eq {config : Config} {env : Environment.Pairs} {term : String} {m : Inbound}
    {plan : List ChannelRequest} (h : plan? config env term m = some plan) :
    ∃ pairs terminal program, program.isEnv = false ∧
      plan = Connection.plan (Environment.restrict config.ssh.envAllowlist pairs) terminal
        program := by
  unfold plan? at h
  split at h
  · exact ⟨_, _, _, rfl, (Option.some.inj h).symm⟩
  · exact ⟨_, _, _, rfl, (Option.some.inj h).symm⟩
  · cases h

/-- The variables that were set on a channel are those of its plan, or the first of them. -/
theorem envs_of_accords {pairs : Environment.Pairs} {terminal : Option Terminal}
    {program : ChannelRequest} {outcome : Outcome} {requests : List ChannelRequest}
    (h : Connection.Accords (Connection.plan pairs terminal program) outcome requests)
    (hp : program.isEnv = false) :
    requests.filter ChannelRequest.isEnv <+: pairs.map fun p => .env p.1 p.2 := by
  have hplan : (Connection.plan pairs terminal program).filter ChannelRequest.isEnv =
      pairs.map fun p => .env p.1 p.2 := by
    have hpairs : (pairs.map fun p => ChannelRequest.env p.1 p.2).filter ChannelRequest.isEnv =
        pairs.map fun p => .env p.1 p.2 := by
      refine List.filter_eq_self.mpr fun r hr => ?_
      obtain ⟨p, -, rfl⟩ := List.mem_map.mp hr
      rfl
    have hterminal : ∀ t, (ChannelRequest.terminal t).isEnv = false := fun _ => rfl
    rw [Connection.plan, List.filter_append, List.filter_append, hpairs]
    cases terminal <;> simp [hp, hterminal]
  cases h with
  | stopped h =>
      rw [← hplan]
      exact h.filter _
  | complete hu =>
      have hnone : ∀ uses : List ChannelRequest, (∀ r ∈ uses, r.isUse = true) →
          uses.filter ChannelRequest.isEnv = [] := by
        refine fun uses hu => List.filter_eq_nil_iff.mpr fun r hr => ?_
        have huse := hu r hr
        cases r <;> simp_all [ChannelRequest.isUse, ChannelRequest.isEnv]
      rw [List.filter_append, hnone _ hu, List.append_nil]
      exact hplan ▸ List.prefix_refl _

/-- What was asked on a channel, if the messages of its session determined it. -/
theorem envs_of_conducts {begun : Session Connection} {σs : List Stimulus} {c : Connection}
    (h : c.Conducts (OpenedFor begun σs)) (n : Nat) :
    ∃ pairs, (Connection.requestsOn n c.asked).filter ChannelRequest.isEnv <+:
      (Environment.restrict begun.config.ssh.envAllowlist pairs).map fun p => .env p.1 p.2 := by
  by_cases hn : n < c.channels
  · obtain ⟨plan, outcome, ⟨_, _, _, _, _, _, -, -, -, -, hplan⟩, haccords, -⟩ := h.accords n hn
    obtain ⟨pairs, terminal, program, hp, rfl⟩ := plan?_eq hplan
    exact ⟨pairs, envs_of_accords haccords hp⟩
  · rw [Connection.requestsOn_eq_nil fun r hr => hn (h.asked n r hr)]
    exact ⟨[], List.nil_prefix⟩

/-- What a server is asked on a channel is what the plan says for the message that opened it, in
that order, and no more than its beginning if the channel failed; what follows the plan is no more
than data, sizes and the end. No variable reaches a server that is not allowed, and no more than
fifty on a channel. -/
theorem channel_requests_run (config : Config) (peer : Peer) (readyTimeout : Nat)
    (readKey : Auth.KeyReader) (cached : Option Credentials) (env : Environment.Pairs)
    (σs : List Stimulus) :
    let begun := start config ({ peer, readyTimeout, readKey } : Connection) cached env
    let c := (begun.run σs).remote
    (∀ n, n < c.channels → ∃ plan outcome, OpenedFor begun σs n plan outcome ∧
      Connection.Accords plan outcome (Connection.requestsOn n c.asked)) ∧
    (∀ n r, .channel n r ∈ c.asked → n < c.channels) ∧
    (∀ n name value, .channel n (.env name value) ∈ c.asked →
      (config.ssh.envAllowlist = [] ∨ name ∈ config.ssh.envAllowlist) ∧
        Environment.isName name.toList = true ∧ name.utf8ByteSize ≤ 32 ∧
          value.utf8ByteSize ≤ 512) ∧
    ∀ n, (Connection.requestsOn n c.asked).countP ChannelRequest.isEnv ≤ 50 := by
  intro begun c
  have hb : begun.Coherent := coherent_start _ _ _ _
  have hstart : (begun.run []).remote.Conducts (OpenedFor begun []) := ⟨nofun, nofun, nofun⟩
  have h : c.Conducts (OpenedFor begun σs) := hb.conducts_run hstart σs
  refine ⟨fun n hn => ?_, h.asked, fun n name value hm => ?_, fun n => ?_⟩
  · obtain ⟨plan, outcome, ho, ha, -⟩ := h.accords n hn
    exact ⟨plan, outcome, ho, ha⟩
  · obtain ⟨pairs, hpre⟩ := envs_of_conducts h n
    have hmem : .env name value ∈ (Connection.requestsOn n c.asked).filter ChannelRequest.isEnv :=
      List.mem_filter.mpr ⟨Connection.mem_requestsOn.mpr hm, rfl⟩
    obtain ⟨p, hp, heq⟩ := List.mem_map.mp (hpre.subset hmem)
    injection heq with hname hvalue
    subst hname hvalue
    exact mem_restrict hp
  · obtain ⟨pairs, hpre⟩ := envs_of_conducts h n
    have hlen := hpre.length_le
    rw [← List.countP_eq_length_filter, List.length_map] at hlen
    have hlimit : (Environment.restrict begun.config.ssh.envAllowlist pairs).length ≤ 50 := by
      rw [Environment.restrict, List.length_take]
      exact Nat.min_le_left _ _
    exact Nat.le_trans hlen hlimit

/-- A server that lets everybody in and carries out everything. -/
def obliging : Peer where
  dial _ := .ok ()
  decide _ := .ok .accepted
  converse _ := .ok (.verdict .accepted)
  permit _ := .ok ()

/-- A gateway whose operator allows two variables. -/
def frugal : Config :=
  { Config.standard with ssh := { Config.standard.ssh with envAllowlist := ["LANG", "TZ"] } }

/-- A client that has a command run and then opens a shell. -/
def commandThenShell : List Stimulus :=
  [.message (.ok (.auth ⟨⟨"h", 22, "user", some "pw", none, none⟩, some "vt100", none⟩)), .settle,
    .message (.ok (.exec ⟨"date", true, none, .standard, [("TZ", "UTC"), ("PATH", "/tmp")], none⟩)),
    .stream none, .message (.ok (.terminal ⟨some "ansi", .standard⟩))]

/-- The session of a client that names two variables when it comes. -/
def frugalSession : Session Connection :=
  start frugal { peer := obliging, readyTimeout := 20000, readKey := fun _ _ => none } none
    [("LD_PRELOAD", "x.so"), ("LANG", "C")]

theorem channel_requests_run_commandThenShell :
    let c := (frugalSession.run commandThenShell).remote
    Connection.requestsOn 0 c.asked =
      [.env "LANG" "C", .env "TZ" "UTC", .terminal ⟨"vt100", .standard⟩, .exec "date", .close] ∧
    Connection.requestsOn 1 c.asked =
      [.env "LANG" "C", .terminal ⟨"ansi", .standard⟩, .shell] ∧
    ∀ n, n < 2 → ∃ plan outcome, OpenedFor frugalSession commandThenShell n plan outcome ∧
      Connection.Accords plan outcome (Connection.requestsOn n c.asked) := by
  intro c
  have hchannels : c.channels = 2 := by decide +kernel
  refine ⟨by decide +kernel, by decide +kernel, fun n hn => ?_⟩
  obtain ⟨hopened, -⟩ := channel_requests_run frugal obliging 20000 (fun _ _ => none) none
    [("LD_PRELOAD", "x.so"), ("LANG", "C")] commandThenShell
  exact hopened n (Nat.lt_of_lt_of_eq hn hchannels.symm)

end TerminalGateway.Session

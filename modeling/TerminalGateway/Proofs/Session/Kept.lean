import Mathlib.Data.List.Basic
import TerminalGateway.Proofs.Session.Operations
import TerminalGateway.Proofs.Session.Troubles
import TerminalGateway.Proofs.Session.Vetting

/-!
The credentials that are kept for a session. Its record tells at every moment whether they are
still there: they are given up for good at the client's word, at a login that it is let start over,
and where the server could not be reached. Each login is made with the credentials of its request
or with those kept, never with parts of both.
-/

namespace TerminalGateway

namespace Entry

/-- Credentials that were kept are given up here; `mayReauth` says whether a client is let log in
again. -/
def forgets (mayReauth : Bool) : Entry → Bool
  | .handled (.ok (.control .clearCredentials)) => true
  | .handled (.ok (.control .reauth)) => mayReauth
  | .settled (.error f) => f.kind.clearsCredentials
  | _ => false

/-- The credentials with which a login is made, or refused for its target. -/
def login? (nets : List Net.Subnet) : Entry → Option Credentials
  | .called (.connect c) _ => some c
  | .vetted c found =>
      match Net.judge nets c.host found with
      | .ok () => none
      | .error _ => some c
  | _ => none

theorem login?_of_isMinor {nets : List Net.Subnet} {e : Entry} (h : e.isMinor = true) :
    e.login? nets = none := by
  unfold login?
  split <;> simp_all [isMinor]

end Entry

namespace Record

/-- What is left of the credentials that were kept at first. -/
def kept? (mayReauth : Bool) (cached : Option Credentials) (record : List Entry) :
    Option Credentials :=
  if record.any (Entry.forgets mayReauth) then none else cached

theorem kept?_append (mayReauth : Bool) (cached : Option Credentials) (record es : List Entry) :
    kept? mayReauth cached (record ++ es) =
      if es.any (Entry.forgets mayReauth) then none else kept? mayReauth cached record := by
  simp only [kept?, List.any_append, Bool.or_eq_true]
  by_cases h : es.any (Entry.forgets mayReauth) = true <;> simp [h]

def logins (nets : List Net.Subnet) (record : List Entry) : List Credentials :=
  record.filterMap (Entry.login? nets)

theorem logins_append (nets : List Net.Subnet) (record es : List Entry) :
    logins nets (record ++ es) = logins nets record ++ logins nets es :=
  List.filterMap_append

theorem logins_of_minor {nets : List Net.Subnet} {es : List Entry}
    (h : ∀ e ∈ es, e.isMinor = true) : logins nets es = [] :=
  List.filterMap_eq_nil_iff.mpr fun e he => Entry.login?_of_isMinor (h e he)

end Record

/-- The credentials that a message is to be answered with: its own if they have a secret, else those
kept if they have one. -/
def Inbound.login? (kept : Option Credentials) : Inbound → Option Credentials
  | .ok (.auth r) =>
      if r.credentials.hasSecret then some r.credentials else kept.filter (·.hasSecret)
  | _ => none

namespace Session

variable {ρ : Type} {s t u : Session ρ}

/-! ### What is kept -/

/-- A session keeps what was kept for it, and nothing came up that gives it up. -/
def Retains (s t : Session ρ) : Prop :=
  t.cached = s.cached ∧ Adds (!·.forgets true) s t

theorem Retains.of_record {es : List Entry} (hk : t.cached = s.cached)
    (hr : t.record = s.record ++ es) (he : es.all (!·.forgets true) = true) : Retains s t :=
  ⟨hk, .of_record hr he⟩

theorem Retains.same (hk : t.cached = s.cached) (hr : t.record = s.record) : Retains s t :=
  ⟨hk, .same hr⟩

theorem Retains.trans (h : Retains s t) (h' : Retains t u) : Retains s u :=
  ⟨h'.1.trans h.1, h.2.trans h'.2⟩

/-- What a session keeps follows from the entries that were added to its record. -/
def Accounts (mayReauth : Bool) (s t : Session ρ) : Prop :=
  ∃ es, t.record = s.record ++ es ∧
    t.cached = if es.any (Entry.forgets mayReauth) then none else s.cached

theorem Retains.accounts (h : Retains s t) (mayReauth : Bool) : Accounts mayReauth s t := by
  obtain ⟨hk, es, hr, he⟩ := h
  refine ⟨es, hr, ?_⟩
  rw [if_neg, hk]
  rw [List.any_eq_true]
  rintro ⟨e, hm, hf⟩
  have hno := he e hm
  unfold Entry.forgets at hf hno
  split at hf <;> simp_all

variable [Remote ρ]

theorem Vets.retains {c : Credentials} {found : Except String (List Net.Address)}
    (h : Vets s c found t) : t.isClosing = true ∨ Retains s t := by
  cases h with
  | allowed _ =>
      have hv : Retains s (s.vetted c found) := .of_record rfl rfl rfl
      exact .inr (hv.trans (.of_record rfl rfl rfl))
  | refused _ => exact .inl (isClosing_ended _)

theorem Approaches.retains {c : Credentials} (h : Approaches s c t) :
    t.isClosing = true ∨ Retains s t := by
  cases h with
  | unrestricted _ => exact .inr (.of_record rfl rfl rfl)
  | literal _ _ hv => exact hv.retains
  | named _ _ => exact .inr (.same rfl rfl)

theorem Retains.parted (s : Session ρ) : Retains s s.parted := by
  unfold Session.parted
  split
  · exact .of_record rfl rfl rfl
  · exact .same rfl rfl

omit [Remote ρ] in
theorem Retains.did {what : Call} (s : Session ρ) (remote : ρ) (outcome : Outcome) :
    Retains s (s.did what remote outcome) :=
  .of_record rfl rfl rfl

/-- Only a word of its client makes an open session give up what was kept for it. -/
theorem Answers.retains {m : Inbound} (h : Answers s m t) :
    t.isClosing = true ∨ m = .ok (.control .clearCredentials) ∧ t = { s with cached := none } ∨
      (Entry.handled m).forgets s.permissions.allowReauth = false ∧ Retains s t := by
  cases h with
  | objected ho =>
      refine .inr (.inr ⟨?_, .of_record rfl rfl rfl⟩)
      unfold Entry.forgets
      split
      · rename_i heq
        cases heq
        cases ho
      · rename_i heq
        cases heq
        cases hr : s.permissions.allowReauth with
        | false => rfl
        | true => simp [objection?, hr] at ho
      · rename_i heq
        cases heq
      · rfl
  | ignored hi =>
      refine .inr (.inr ⟨?_, .same rfl rfl⟩)
      unfold ignores at hi
      split at hi <;> first | rfl | cases hi
  | unauthenticated _ => exact .inl (isClosing_ended _)
  | @authenticating r c _ _ ha =>
      have hb : Retains s (s.parted.bound r c) := (Retains.parted s).trans (.same rfl rfl)
      exact ha.retains.imp_right fun hr => .inr ⟨rfl, hb.trans hr⟩
  | shellOpened _ _ => exact .inr (.inr ⟨rfl, .of_record rfl rfl rfl⟩)
  | execOpened _ _ => exact .inr (.inr ⟨rfl, .of_record rfl rfl rfl⟩)
  | resized _ => exact .inr (.inr ⟨rfl, .of_record rfl rfl rfl⟩)
  | wrote _ _ | replayed _ _ _ _ => exact .inr (.inr ⟨rfl, .did s _ _⟩)
  | shellFailed _ _ | execFailed _ _ | resizeFailed _ | writeFailed _ _ =>
      exact .inl (isClosing_broken _ _)
  | replayFailed _ _ _ _ | reauthed _ | disconnected => exact .inl (isClosing_ended _)
  | forgot => exact .inr (.inl ⟨rfl, rfl⟩)

theorem Answers.accounts {m : Inbound} (h : Answers (s.note (.handled m)) m t) :
    t.isClosing = true ∨ Accounts s.permissions.allowReauth s t := by
  rcases h.retains with hc | ⟨rfl, rfl⟩ | ⟨hf, hr⟩
  · exact .inl hc
  · exact .inr ⟨[.handled (.ok (.control .clearCredentials))], rfl, rfl⟩
  · obtain ⟨es, hrec, hk⟩ := hr.accounts s.permissions.allowReauth
    refine .inr ⟨.handled m :: es, by simpa using hrec, ?_⟩
    have hm : (Entry.handled m).forgets s.permissions.allowReauth = false := hf
    rw [List.any_cons, hm, Bool.false_or]
    exact hk

theorem Receives.retains {e : Option StreamEvent} (h : Receives s e t) :
    t.isClosing = true ∨ Retains s t := by
  cases h with
  | output | extended => exact .inr (.of_record rfl rfl rfl)
  | exitStatus _ | exitSignal _ => exact .inr (.same rfl rfl)
  | execClosed _ _ _ => exact .inr (.of_record rfl rfl rfl)
  | shellSignalled _ _ _ _ | failed => exact .inl (isClosing_broken _ _)
  | shellClosed _ _ _ _ => exact .inl (isClosing_ended _)

theorem Moves.accounts {σ : Stimulus} (h : Moves s σ t) :
    t.isClosing = true ∨ Accounts s.permissions.allowReauth s t := by
  have hretains : Retains s t → t.isClosing = true ∨ Accounts s.permissions.allowReauth s t :=
    fun hr => .inr (hr.accounts _)
  cases h with
  | answered _ ha => exact ha.accounts
  | @resumed m rest _ _ _ _ ha => exact Answers.accounts (s := { s with backlog := rest }) ha
  | queued _ _ | abandoned _ _ => exact hretains (.same rfl rfl)
  | prompted _ _ | counted _ => exact hretains (.of_record rfl rfl rfl)
  | @connected c remote _ _ _ =>
      have hs : Retains s (s.settled remote (.ok ())) := .of_record rfl rfl rfl
      exact hretains (hs.trans (.of_record rfl rfl rfl))
  | rebuffed _ _ _ => exact .inl (isClosing_rebuffed _ _ _)
  | givenUp _ _ _ | departed _ => exact .inl (isClosing_ended _)
  | resolved _ hv => exact hv.retains.imp_right fun hr => hr.accounts _
  | @received n e _ _ _ hr =>
      have hn : Retains s (s.note (.received n e)) := .of_record rfl rfl rfl
      exact hr.retains.imp_right fun hr => (hn.trans hr).accounts _
  | expired _ _ => exact hretains (.of_record rfl rfl rfl)

/-- A session that goes on has what its record says is left of the credentials kept for it. -/
structure Holds (may : Bool) (cached : Option Credentials) (s : Session ρ) : Prop where
  mayReauth : s.permissions.allowReauth = may
  kept : s.isClosing = false → s.cached = Record.kept? may cached s.record

theorem Holds.moves {may : Bool} {cached : Option Credentials} (h : s.Holds may cached)
    (ho : s.Open) {σ : Stimulus} (hm : Moves s σ t) : t.Holds may cached := by
  have hset : t.permissions = s.permissions := (Prod.ext_iff.mp hm.settings).2
  refine ⟨hset ▸ h.mayReauth, fun hc => ?_⟩
  rcases hm.accounts with hc' | ⟨es, hr, hk⟩
  · simp [hc] at hc'
  · rw [hr, Record.kept?_append, hk, h.mayReauth, h.kept ho.goesOn]

theorem holds_run (config : Config) (remote : ρ) (cached : Option Credentials)
    (env : Environment.Pairs) (σs : List Stimulus) :
    ((start config remote cached env).run σs).Holds config.permissions.allowReauth cached := by
  refine (coherent_start config remote cached env).run_induction
    ⟨rfl, fun _ => rfl⟩ (fun t h => ⟨h.mayReauth, h.kept⟩) ?_
  intro t σ t' _ _ ho h hm
  exact h.moves ho hm

theorem Vets.cached {c : Credentials} {found : Except String (List Net.Address)}
    (h : Vets s c found t) : t.cached = s.cached := by
  cases h <;> rfl

theorem Answers.cached {m : Inbound} (h : Answers s m t) :
    t.cached = none ∨ t.cached = s.cached := by
  rcases h.keeps with hk | ⟨r, c, -, -, ha⟩
  · exact hk.cached
  · have hpart : s.parted.cached = s.cached := (Retains.parted s).1
    refine .inr (.trans ?_ hpart)
    cases ha with
    | unrestricted _ | named _ _ => rfl
    | literal _ _ hv => exact hv.cached

/-- Nothing is ever kept anew. -/
theorem Moves.cached {σ : Stimulus} (h : Moves s σ t) :
    t.cached = none ∨ t.cached = s.cached := by
  cases h.turns with
  | kept _ hk => exact hk.cached
  | queued _ => exact .inr rfl
  | heard _ ha => exact ha.cached
  | resumed _ _ ha => exact ha.cached
  | resolved _ hv => exact .inr hv.cached

theorem Coherent.cached_run (h : s.Coherent) (σs : List Stimulus) :
    (s.run σs).cached = none ∨ (s.run σs).cached = s.cached := by
  refine h.run_induction (P := fun t => t.cached = none ∨ t.cached = s.cached) (.inr rfl)
    (fun _ ht => ht) ?_
  intro t σ t' _ _ _ ht hm
  rcases hm.cached with hk | hk
  · exact .inl hk
  · rwa [hk]

/-! ### Logins -/

/-- The logins in the record, and the one whose host is being looked up. -/
def logins (nets : List Net.Subnet) (s : Session ρ) : List Credentials :=
  Record.logins nets s.record ++ s.lookup.toList

omit [Remote ρ] in
theorem Keeps.logins (h : Keeps s t) (nets : List Net.Subnet) : t.logins nets = s.logins nets := by
  obtain ⟨es, hr, he⟩ := h.record
  rw [Session.logins, hr, h.lookup, Record.logins_append, Record.logins_of_minor he,
    List.append_nil]
  rfl

theorem Vets.logins {c : Credentials} {found : Except String (List Net.Address)}
    (h : Vets s c found t) :
    t.logins s.config.ssh.allowedSubnets =
      Record.logins s.config.ssh.allowedSubnets s.record ++ [c] := by
  cases h with
  | allowed hj =>
      simp [Session.logins, Session.connect, vetted, Session.note, Record.logins, Entry.login?, hj]
  | refused hj =>
      simp [Session.logins, Session.ended, Session.failing, vetted, farewell, Record.logins,
        Entry.login?, hj]

theorem Approaches.logins {c : Credentials} (h : Approaches s c t) (hl : s.lookup = none) :
    t.logins s.config.ssh.allowedSubnets = s.logins s.config.ssh.allowedSubnets ++ [c] := by
  have hs : s.logins s.config.ssh.allowedSubnets =
      Record.logins s.config.ssh.allowedSubnets s.record := by
    simp [Session.logins, hl]
  rw [hs]
  cases h with
  | unrestricted _ =>
      simp [Session.logins, Session.connect, Session.note, Record.logins, Entry.login?, hl]
  | literal _ _ hv => exact hv.logins
  | named _ _ => simp [Session.logins]

/-- A login is made for a message with the credentials that answer it, and for no other one. -/
theorem Answers.logins {m : Inbound} (h : Answers s m t) (hl : s.lookup = none) :
    t.logins s.config.ssh.allowedSubnets =
      s.logins s.config.ssh.allowedSubnets ++ (m.login? s.cached).toList := by
  match m with
  | .ok (.auth r) =>
      cases h with
      | objected ho => cases ho
      | ignored hi => cases hi
      | unauthenticated hn =>
          have hk : Keeps s (s.parted.failing refreshAndRetry (.sshError refreshAndRetry)).ended :=
            (Keeps.parted s).trans ((Keeps.failing _ _ _).trans (.ended _))
          have hnone : Inbound.login? s.cached (.ok (.auth r)) = none := hn
          rw [hk.logins, hnone, Option.toList_none, List.append_nil]
      | @authenticating _ c _ hc ha =>
          have hb : Keeps s (s.parted.bound r c) :=
            (Keeps.parted s).trans (.of_same rfl (.inr rfl) rfl rfl rfl)
          have hsome : Inbound.login? s.cached (.ok (.auth r)) = some c := hc
          have hlogins := ha.logins (hb.lookup.trans hl)
          rw [hb.config, hb.logins] at hlogins
          rw [hlogins, hsome, Option.toList_some]
  | .error _ | .ok (.terminal _) | .ok (.resize _) | .ok (.exec _) | .ok (.control _)
  | .ok (.data _) =>
      rcases h.keeps with hk | ⟨r, c, hm, -⟩
      · rw [hk.logins]
        exact (List.append_nil _).symm
      · cases hm

theorem Moves.logins {σ : Stimulus} (h : Moves s σ t) (hc : s.isClosing = false) :
    t.logins s.config.ssh.allowedSubnets =
      s.logins s.config.ssh.allowedSubnets ++
        ((s.dispatched? σ).bind (Inbound.login? s.cached)).toList := by
  have haside : ∀ {u}, Keeps s u → s.dispatched? σ = none →
      u.logins s.config.ssh.allowedSubnets =
        s.logins s.config.ssh.allowedSubnets ++
          ((s.dispatched? σ).bind (Inbound.login? s.cached)).toList := by
    intro u hk hd
    rw [hk.logins, hd]
    exact (List.append_nil _).symm
  have hbegun : ∀ {u : Session ρ} {m : Inbound}, Answers (u.note (.handled m)) m t →
      u.lookup = none → t.logins u.config.ssh.allowedSubnets =
        u.logins u.config.ssh.allowedSubnets ++ (m.login? u.cached).toList := by
    intro u m ha hl
    have hlogins := ha.logins hl
    have hnote : (u.note (.handled m)).logins u.config.ssh.allowedSubnets =
        u.logins u.config.ssh.allowedSubnets := by
      simp [Session.logins, Session.note, Record.logins, Entry.login?]
    rw [← hnote]
    exact hlogins
  cases h with
  | answered hi ha =>
      rw [dispatched?, if_pos hi]
      exact hbegun ha (isListening_iff.mp hi).2.1
  | @resumed m rest _ hl ha hb hans =>
      rw [dispatched?_resume hc hl ha hb]
      exact hbegun (u := { s with backlog := rest }) hans hl
  | @queued m _ hl ha =>
      have hnone : s.dispatched? (.message m) = none := by simp [dispatched?, isListening, ha]
      rw [hnone]
      exact (List.append_nil _).symm
  | abandoned _ _ => exact haside (.of_same rfl (.inr rfl) rfl rfl rfl) rfl
  | prompted _ _ | counted _ => exact haside (.note s rfl) rfl
  | connected _ _ _ => exact haside ((Keeps.settled s _ _).trans (.welcomed _ _)) rfl
  | rebuffed _ _ _ => exact haside ((Keeps.settled s _ _).trans (.rebuffed _ _ _)) rfl
  | givenUp _ _ _ => exact haside ((Keeps.settled s _ _).trans (.ended _)) rfl
  | resolved hl hv =>
      rw [hv.logins, Session.logins, hl]
      exact (List.append_nil _).symm
  | departed _ => exact haside (.ended s) rfl
  | received _ _ hr => exact haside ((Keeps.note s rfl).trans hr.keeps) rfl
  | expired _ _ => exact haside (.released s rfl) rfl

theorem Coherent.logins_step (h : s.Coherent) (σ : Stimulus) :
    (s.step σ).logins s.config.ssh.allowedSubnets =
      s.logins s.config.ssh.allowedSubnets ++
        ((s.dispatched? σ).bind (Inbound.login? s.cached)).toList := by
  by_cases hσ : σ = .elapse
  · rw [hσ, step_elapse]
    exact (List.append_nil _).symm
  rcases h.heeded_cases hσ with ⟨hh, hs⟩ | ⟨ho, hm⟩
  · rw [hs, dispatched?_eq_none hh]
    exact (List.append_nil _).symm
  · exact hm.logins ho.goesOn

theorem Coherent.logins_run (h : s.Coherent) {config : Config} (hc : s.config = config)
    (σs : List Stimulus) :
    (s.run σs).logins config.ssh.allowedSubnets =
      s.logins config.ssh.allowedSubnets ++
        (s.dispatches σs).filterMap fun x => x.2.login? x.1.cached := by
  induction σs generalizing s with
  | nil => exact (List.append_nil _).symm
  | cons σ σs ih =>
      have hset : (s.step σ).config = config :=
        (Prod.ext_iff.mp (h.settings_run [σ])).1.trans hc
      have hstep := h.logins_step σ
      rw [hc] at hstep
      rw [show s.run (σ :: σs) = (s.step σ).run σs from rfl, ih (h.step σ) hset, hstep, dispatches,
        List.filterMap_append, List.append_assoc]
      congr 2
      cases s.dispatched? σ with
      | none => rfl
      | some m => cases hm : Inbound.login? s.cached m <;> simp [hm]

/-! ### Requests without a secret -/

/-- A message that is dispatched is answered at once. -/
theorem Coherent.answers_dispatched (h : s.Coherent) {σ : Stimulus} {m : Inbound}
    (hd : s.dispatched? σ = some m) :
    ∃ u : Session ρ, u.record = s.record ∧ u.cached = s.cached ∧
      Answers (u.note (.handled m)) m (s.step σ) := by
  have hc := isClosing_of_dispatched hd
  have hσ : σ ≠ .elapse := by
    rintro rfl
    cases hd
  rcases h.heeded_cases hσ with ⟨hh, -⟩ | ⟨-, hm⟩
  · rw [dispatched?_eq_none hh] at hd
    cases hd
  generalize s.step σ = t at hm ⊢
  cases hm with
  | @answered m' _ hi ha =>
      rw [dispatched?, if_pos hi] at hd
      obtain rfl := Option.some.inj hd
      exact ⟨s, rfl, rfl, ha⟩
  | @resumed m' rest _ hl ha hb hans =>
      rw [dispatched?_resume hc hl ha hb] at hd
      obtain rfl := Option.some.inj hd
      exact ⟨{ s with backlog := rest }, rfl, rfl, hans⟩
  | queued hl ha => simp [dispatched?, isListening, ha] at hd
  | _ => cases hd

/-- A request without a secret for which nothing is kept is told so and ends the session. -/
theorem Answers.expired {r : AuthRequest}
    (h : Answers (s.note (.handled (.ok (.auth r)))) (.ok (.auth r)) t)
    (hn : Inbound.login? s.cached (.ok (.auth r)) = none) :
    t.phase = .closed ∧ ∃ parting, (parting = [] ∨ parting = [.called .hangUp (.ok ())]) ∧
      t.record = s.record ++ .handled (.ok (.auth r)) :: parting ++
        .sent (.sshError refreshAndRetry) :: farewell := by
  cases h with
  | objected ho => cases ho
  | ignored hi => cases hi
  | authenticating hc _ =>
      exact absurd (hc.symm.trans hn) (by simp)
  | unauthenticated _ =>
      obtain ⟨parting, hr, hp⟩ := parted_record (s.note (.handled (.ok (.auth r))))
      refine ⟨rfl, parting, hp, ?_⟩
      simp [Session.ended, Session.failing, hr]

/-- Credentials that are kept for a session are given up for good, and the record tells when. Each
login is made for one request, with its own credentials or else with those still kept, and a request
without a secret that comes later ends the session. -/
theorem logins_by_record (config : Config) (remote : ρ) (cached : Option Credentials)
    (env : Environment.Pairs) (σs : List Stimulus) :
    let begun := start config remote cached env
    let s := begun.run σs
    let may := config.permissions.allowReauth
    (∀ past rest, σs = past ++ rest → s.cached = none ∨ s.cached = (begun.run past).cached) ∧
    (∀ x ∈ begun.dispatches σs, x.1.cached = Record.kept? may cached x.1.record) ∧
    s.logins config.ssh.allowedSubnets = (begun.dispatches σs).filterMap (fun x =>
      x.2.login? (Record.kept? may cached x.1.record)) ∧
    ∀ u r, (u, .ok (.auth r)) ∈ begun.dispatches σs → r.credentials.hasSecret = false →
      u.record.any (Entry.forgets may) = true →
        s.phase = .closed ∧ ∃ parting, (parting = [] ∨ parting = [.called .hangUp (.ok ())]) ∧
          s.record = u.record ++ .handled (.ok (.auth r)) :: parting ++
            .sent (.sshError refreshAndRetry) :: farewell := by
  intro begun s may
  have hbegun : begun.Coherent := coherent_start config remote cached env
  have hkept : ∀ x ∈ begun.dispatches σs, x.1.cached = Record.kept? may cached x.1.record := by
    intro x hx
    obtain ⟨past, σ, rest, -, hrun, hd⟩ := mem_dispatches hx
    rw [hrun] at hd ⊢
    exact (holds_run config remote cached env past).kept (isClosing_of_dispatched hd)
  refine ⟨?_, hkept, ?_, ?_⟩
  · rintro past rest rfl
    have hs : s = (begun.run past).run rest := begun.run_append past rest
    rw [hs]
    exact (hbegun.run past).cached_run rest
  · have hlogins : s.logins config.ssh.allowedSubnets =
        [] ++ (begun.dispatches σs).filterMap fun x => x.2.login? x.1.cached :=
      hbegun.logins_run rfl σs
    rw [hlogins, List.nil_append]
    exact List.filterMap_congr fun x hx => by rw [hkept x hx]
  · intro u r hx hn hf
    have hcached : u.cached = none := by
      rw [hkept _ hx]
      exact if_pos hf
    obtain ⟨past, σ, rest, hσs, hrun, hd⟩ := mem_dispatches hx
    dsimp only at hrun hd
    have hu : u.Coherent := hrun ▸ hbegun.run past
    obtain ⟨v, hr, hk, ha⟩ := hu.answers_dispatched hd
    have hnone : Inbound.login? v.cached (.ok (.auth r)) = none := by
      simp [Inbound.login?, hn, hk, hcached]
    obtain ⟨hclosed, parting, hp, hrecord⟩ := ha.expired hnone
    have hs : s = (u.step σ).run rest := by
      have happend := begun.run_append past (σ :: rest)
      rwa [← hσs, ← hrun] at happend
    obtain ⟨clock, hclock⟩ := run_closing (isClosing_of_closed hclosed) rest
    rw [hs, hclock]
    exact ⟨hclosed, parting, hp, by rw [hrecord, hr]⟩

/-- A client without a password logs in with what was kept for it, has that forgotten, and asks for
another login. -/
theorem logins_by_record_forgotten :
    let asking : AuthRequest := ⟨⟨"10.0.0.2", 22, "user", none, none, none⟩, none, none⟩
    let σs : List Stimulus := [.message (.ok (.auth asking)), .settle,
      .message (.ok (.control .clearCredentials)), .message (.ok (.auth asking))]
    let begun := start Config.standard ({} : Script) (some (loginAt "10.0.0.1")) []
    (begun.run σs).logins [] = [loginAt "10.0.0.1"] ∧ (begun.run σs).phase = .closed := by
  intro asking σs begun
  have h := logins_by_record Config.standard ({} : Script) (some (loginAt "10.0.0.1")) [] σs
  refine ⟨h.2.2.1.trans (by decide +kernel), ?_⟩
  have hlistens : (begun.run (σs.take 3)).isListening = true := by decide +kernel
  have hd : (begun.run (σs.take 3)).dispatched? (.message (.ok (.auth asking))) =
      some (.ok (.auth asking)) := by
    rw [dispatched?, if_pos hlistens]
  have hmem := mem_dispatches_of_dispatched hd []
  rw [show σs.take 3 ++ [.message (.ok (.auth asking))] = σs from rfl] at hmem
  exact (h.2.2.2 _ asking hmem (by decide +kernel) (by decide +kernel)).1

end Session

end TerminalGateway

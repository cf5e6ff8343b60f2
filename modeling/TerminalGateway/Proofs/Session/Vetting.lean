import TerminalGateway.Proofs.Config
import TerminalGateway.Proofs.Session.Coherence
import TerminalGateway.Proofs.Session.Turns
import TerminalGateway.Session.Scripted

/-!
No connection is begun around the check of its target. Each one in the record stands right behind
the request that it answers and the check that it passed, and a check that was not passed is the
last thing that a session does but for its farewell.
-/

namespace TerminalGateway

/-- The login with which an authentication request is answered. -/
structure Chosen (cached : Option Credentials) (r : AuthRequest) (c : Credentials) : Prop where
  secret : c.hasSecret = true
  source : c = r.credentials ∨ r.credentials.hasSecret = false ∧ cached = some c

namespace Record

/-- A request is being answered with a login, and at most the older connection was ended for it. -/
def Answering (cached : Option Credentials) (record : List Entry) (c : Credentials) : Prop :=
  ∃ before r parting, record = before ++ .handled (.ok (.auth r)) :: parting ∧
    (parting = [] ∨ parting = [.called .hangUp (.ok ())]) ∧ Chosen cached r c

/-- What has to stand between a request and its connection. -/
inductive Cleared (nets : List Net.Subnet) (c : Credentials) : List Entry → Prop
  | unrestricted (h : nets = []) : Cleared nets c []
  | vetted {found : Except String (List Net.Address)} (h : nets ≠ [])
      (hl : ∀ a, Net.literal? c.host = some a → found = .ok [a])
      (hj : Net.judge nets c.host found = .ok ()) : Cleared nets c [.vetted c found]

def Approved (nets : List Net.Subnet) (cached : Option Credentials) (past : List Entry) :
    Entry → Prop
  | .called (.connect c) _ =>
      ∃ since check, past = since ++ check ∧ Answering cached since c ∧ Cleared nets c check
  | _ => True

def Passed (nets : List Net.Subnet) : Entry → Prop
  | .vetted c found => Net.judge nets c.host found = .ok ()
  | _ => True

/-- A check was not passed, and nothing but the end of the session came of it. -/
def Refused (nets : List Net.Subnet) (record : List Entry) : Prop :=
  ∃ before c found refusal,
    record = before ++ .vetted c found :: .sent (.sshError refusal.text) :: Session.farewell ∧
      Net.judge nets c.host found = .error refusal ∧ ∀ e ∈ before, Passed nets e

/-- Neither a check of a target nor the beginning of a connection. -/
def Untargeted : Entry → Prop
  | .vetted _ _ | .called (.connect _) _ => False
  | _ => True

theorem untargeted_of_isMinor {e : Entry} (h : e.isMinor = true) : Untargeted e := by
  unfold Untargeted
  split <;> simp_all [Entry.isMinor]

theorem each_approved_of_untargeted {nets : List Net.Subnet} {cached : Option Credentials}
    {record es : List Entry} (h : ∀ e ∈ es, Untargeted e) :
    Each (fun past => Approved nets cached (record ++ past)) es := by
  rintro past e rest rfl
  have he := h e (by simp)
  unfold Approved
  split
  · exact he.elim
  · trivial

theorem passed_of_untargeted {nets : List Net.Subnet} {e : Entry} (h : Untargeted e) :
    Passed nets e := by
  unfold Passed
  split
  · exact h.elim
  · trivial

end Record

namespace Session

variable {ρ : Type} {config : Config} {cached : Option Credentials} {s t : Session ρ}

open Record

structure Guarded (config : Config) (cached : Option Credentials) (s : Session ρ) : Prop where
  sameConfig : s.config = config
  sameCached : s.cached = none ∨ s.cached = cached
  resolving : ∀ c, s.lookup = some c →
    config.ssh.allowedSubnets ≠ [] ∧ Net.literal? c.host = none ∧ Answering cached s.record c
  connects : Each (Approved config.ssh.allowedSubnets cached) s.record
  verdict : (∀ e ∈ s.record, Passed config.ssh.allowedSubnets e) ∨
    s.phase = .closed ∧ Refused config.ssh.allowedSubnets s.record

theorem Guarded.passed (h : s.Guarded config cached) (ho : s.Open) :
    ∀ e ∈ s.record, Passed config.ssh.allowedSubnets e := by
  rcases h.verdict with hp | ⟨hc, -⟩
  · exact hp
  · have hgoes := ho.goesOn
    simp [isClosing, hc] at hgoes

theorem Guarded.append (h : s.Guarded config cached) (ho : s.Open) (hc : t.config = s.config)
    (hk : t.cached = none ∨ t.cached = s.cached) (hl : t.lookup = none) {es : List Entry}
    (hr : t.record = s.record ++ es) (he : ∀ e ∈ es, Untargeted e) : t.Guarded config cached where
  sameConfig := hc.trans h.sameConfig
  sameCached := by
    rcases hk with hk | hk
    · exact .inl hk
    · rw [hk]
      exact h.sameCached
  resolving := by simp [hl]
  connects := by
    rw [hr, each_append]
    exact ⟨h.connects, each_approved_of_untargeted he⟩
  verdict := by
    refine .inl fun e hm => ?_
    rw [hr] at hm
    rcases List.mem_append.mp hm with hm | hm
    · exact h.passed ho e hm
    · exact passed_of_untargeted (he e hm)

theorem Guarded.keeps (h : s.Guarded config cached) (ho : s.Open) (hl : s.lookup = none)
    (hk : Keeps s t) : t.Guarded config cached := by
  obtain ⟨es, hr, he⟩ := hk.record
  exact h.append ho hk.config hk.cached (hk.lookup.trans hl) hr fun e hm =>
    untargeted_of_isMinor (he e hm)

variable [Remote ρ]

theorem Guarded.connect (h : t.Guarded config cached) (ho : t.Open) {c : Credentials}
    {since check : List Entry} (hl : t.lookup = none) (hr : t.record = since ++ check)
    (ha : Answering cached since c) (hc : Cleared config.ssh.allowedSubnets c check) :
    (t.connect c).Guarded config cached where
  sameConfig := h.sameConfig
  sameCached := h.sameCached
  resolving := by simp [Session.connect, Session.note, hl]
  connects := by
    simp only [Session.connect, record_note, each_append, each_cons, each_nil, and_true]
    exact ⟨h.connects, since, check, by simp [hr], ha, hc⟩
  verdict := by
    refine .inl fun e hm => ?_
    simp only [Session.connect, record_note, List.mem_append, List.mem_singleton] at hm
    rcases hm with hm | rfl
    · exact h.passed ho e hm
    · trivial

theorem Guarded.vets (h : s.Guarded config cached) (ho : s.Open) {c : Credentials}
    {found : Except String (List Net.Address)} (ha : Answering cached s.record c)
    (hn : config.ssh.allowedSubnets ≠ [])
    (hl : ∀ a, Net.literal? c.host = some a → found = .ok [a]) (hv : Vets s c found t) :
    t.Guarded config cached := by
  cases hv with
  | allowed hj =>
      rw [h.sameConfig] at hj
      have hg : (s.vetted c found).Guarded config cached := {
        sameConfig := h.sameConfig
        sameCached := h.sameCached
        resolving := by simp [vetted]
        connects := by
          simp only [vetted, each_append, each_cons, each_nil, and_true]
          exact ⟨h.connects, trivial⟩
        verdict := by
          refine .inl fun e hm => ?_
          simp only [vetted, List.mem_append, List.mem_singleton] at hm
          rcases hm with hm | rfl
          · exact h.passed ho e hm
          · exact hj }
      exact hg.connect ⟨ho.goesOn, ho.faultless, ho.registered⟩ rfl rfl ha (.vetted hn hl hj)
  | @refused refusal hj =>
      rw [h.sameConfig] at hj
      have hrecord : ((s.vetted c found).failing refusal.text (.sshError refusal.text)).ended.record
          = s.record ++ .vetted c found :: .sent (.sshError refusal.text) :: farewell := by
        simp [ended, failing, vetted]
      exact {
        sameConfig := h.sameConfig
        sameCached := h.sameCached
        resolving := by simp [ended, failing, vetted]
        connects := by
          rw [hrecord, each_append]
          refine ⟨h.connects, ?_⟩
          simp [farewell, Approved]
        verdict := .inr ⟨rfl, s.record, c, found, refusal, hrecord, hj, h.passed ho⟩ }

theorem Guarded.approaches (h : s.Guarded config cached) (ho : s.Open) (hl : s.lookup = none)
    {c : Credentials} (hc : Answering cached s.record c) (ha : Approaches s c t) :
    t.Guarded config cached := by
  cases ha with
  | unrestricted hn =>
      rw [h.sameConfig] at hn
      exact h.connect ho hl (List.append_nil _).symm hc (.unrestricted hn)
  | literal hn ha hv =>
      rw [h.sameConfig] at hn
      exact h.vets ho hc hn (by simp [ha]) hv
  | named hn ha =>
      rw [h.sameConfig] at hn
      exact { h with resolving := by simpa using ⟨hn, ha, hc⟩ }

omit [Remote ρ] in
theorem chosen_of_resolve? {r : AuthRequest} {c : Credentials}
    (hk : s.cached = none ∨ s.cached = cached) (h : s.resolve? r.credentials = some c) :
    Chosen cached r c := by
  unfold resolve? at h
  cases hs : r.credentials.hasSecret with
  | true =>
      obtain rfl : r.credentials = c := by simpa [hs] using h
      exact ⟨hs, .inl rfl⟩
  | false =>
      obtain ⟨hc, hsecret⟩ : s.cached = some c ∧ c.hasSecret = true := by
        simpa [hs, Option.filter_eq_some_iff] using h
      refine ⟨hsecret, .inr ⟨hs, ?_⟩⟩
      rcases hk with hk | hk
      · simp [hk] at hc
      · rw [← hk, hc]

theorem parted_record (s : Session ρ) : ∃ parting, s.parted.record = s.record ++ parting ∧
    (parting = [] ∨ parting = [.called .hangUp (.ok ())]) := by
  unfold parted
  split
  · exact ⟨_, rfl, .inr rfl⟩
  · exact ⟨[], (List.append_nil _).symm, .inl rfl⟩

/-- Handling a message keeps a session guarded. -/
theorem Guarded.hears (h : s.Guarded config cached) (ho : s.Open) (hl : s.lookup = none)
    {m : Inbound} (ha : Answers (s.note (.handled m)) m t) : t.Guarded config cached := by
  have hn : (s.note (.handled m)).Guarded config cached :=
    h.append ho rfl (.inr rfl) hl rfl (by simp [Untargeted])
  rcases ha.keeps with hk | ⟨r, c, rfl, hr, hap⟩
  · exact hn.keeps (ho.note _) hl hk
  · have hpart := Keeps.parted (s.note (.handled (.ok (.auth r))))
    have hb : ((s.note (.handled (.ok (.auth r)))).parted.bound r c).Guarded config cached :=
      hn.keeps (ho.note _) hl (hpart.trans (.of_same rfl (.inr rfl) rfl rfl rfl))
    refine hb.approaches ⟨rfl, (ho.note _).parted.faultless, (ho.note _).parted.registered⟩
      (hpart.lookup.trans hl) ?_ hap
    obtain ⟨parting, hrec, hp⟩ := parted_record (s.note (.handled (.ok (.auth r))))
    refine ⟨s.record, r, parting, ?_, hp, chosen_of_resolve? h.sameCached hr⟩
    simpa [bound] using hrec

theorem Guarded.turns (h : s.Guarded config cached) (ho : s.Open) {σ : Stimulus}
    (ht : Turns s σ t) : t.Guarded config cached := by
  cases ht with
  | kept hl hk => exact h.keeps ho hl hk
  | queued _ => exact ⟨h.sameConfig, h.sameCached, h.resolving, h.connects, h.verdict⟩
  | heard hl ha => exact h.hears ho hl ha
  | @resumed m rest _ hl _ ha =>
      have hb : ({ s with backlog := rest } : Session ρ).Guarded config cached :=
        ⟨h.sameConfig, h.sameCached, h.resolving, h.connects, h.verdict⟩
      exact hb.hears ⟨ho.goesOn, ho.faultless, ho.registered⟩ hl ha
  | resolved hl hv =>
      -- nothing was recorded during the look-up, so its request still stands last
      obtain ⟨hn, hlit, hc⟩ := h.resolving _ hl
      exact h.vets ho hc hn (by simp [hlit]) hv

omit [Remote ρ] in
theorem guarded_start (config : Config) (remote : ρ) (cached : Option Credentials)
    (env : Environment.Pairs) : (start config remote cached env).Guarded config cached := by
  constructor <;> simp [start]

theorem guarded_run (config : Config) (remote : ρ) (cached : Option Credentials)
    (env : Environment.Pairs) (σs : List Stimulus) :
    ((start config remote cached env).run σs).Guarded config cached := by
  refine (coherent_start config remote cached env).run_induction
    (guarded_start config remote cached env) ?_ ?_
  · intro t h
    exact ⟨h.sameConfig, h.sameCached, h.resolving, h.connects, h.verdict⟩
  · intro t σ t' _ _ ho h hm
    exact h.turns ho hm.turns

omit [Remote ρ] in
theorem Guarded.after_refusal (h : s.Guarded config cached) {past rest : List Entry}
    {c : Credentials} {found : Except String (List Net.Address)} {refusal : Net.TargetRefusal}
    (hr : s.record = past ++ .vetted c found :: rest)
    (hj : Net.judge config.ssh.allowedSubnets c.host found = .error refusal) :
    rest = .sent (.sshError refusal.text) :: farewell ∧ s.phase = .closed := by
  have hnot : ¬ Passed config.ssh.allowedSubnets (.vetted c found) := by simp [Passed, hj]
  rcases h.verdict with hp | ⟨hclosed, before, c', found', refusal', hr', hj', hp⟩
  · exact absurd (hp _ (by simp [hr])) hnot
  · -- all checks before the refused one were passed and none follows it
    obtain ⟨-, he, rfl⟩ := split_unique (hr'.symm.trans hr) (fun hm => hnot (hp _ hm))
      (by simp [farewell])
    obtain ⟨rfl, rfl⟩ := Entry.vetted.inj he
    obtain rfl : refusal' = refusal := by simpa [hj'] using hj
    exact ⟨rfl, hclosed⟩

/-- Where targets are restricted, each connection follows the check that its login passed, and after
a check that was not passed the session tells the reason and ends. -/
theorem connect_after_vetting (config : Config) (hn : config.ssh.allowedSubnets ≠ [])
    (remote : ρ) (cached : Option Credentials) (env : Environment.Pairs) (σs : List Stimulus) :
    let s := (start config remote cached env).run σs
    (∀ past c outcome rest, s.record = past ++ .called (.connect c) outcome :: rest →
      ∃ since found, past = since ++ [.vetted c found] ∧ Answering cached since c ∧
        (∀ a, Net.literal? c.host = some a → found = .ok [a]) ∧
        Net.judge config.ssh.allowedSubnets c.host found = .ok ()) ∧
    (∀ past c found refusal rest, s.record = past ++ .vetted c found :: rest →
      Net.judge config.ssh.allowedSubnets c.host found = .error refusal →
      rest = .sent (.sshError refusal.text) :: farewell ∧ s.phase = .closed) := by
  intro s
  have h : s.Guarded config cached := guarded_run config remote cached env σs
  refine ⟨?_, fun past c found refusal rest => h.after_refusal⟩
  intro past c outcome rest hr
  obtain ⟨since, check, hpast, ha, hc⟩ := h.connects past _ rest hr
  cases hc with
  | unrestricted hnil => exact absurd hnil hn
  | @vetted found _ hl hj => exact ⟨since, found, hpast, ha, hl, hj⟩

/-- A gateway that connects to `10.0.0.0/8` only. -/
def tenOnly : Config :=
  { Config.standard with
    ssh := { Config.standard.ssh with allowedSubnets := [.v4 0x0a000000#32 8] } }

def loginAt (host : String) : Credentials := ⟨host, 22, "user", some "pw", none, none⟩

def authAt (host : String) : Stimulus := .message (.ok (.auth ⟨loginAt host, none, none⟩))

/-- A client inside the network logs in again outside of it. -/
theorem connect_after_vetting_reauth :
    let s := (start tenOnly ({} : Script) none []).run
      [authAt "10.0.0.1", .settle, authAt "11.0.0.1"]
    tenOnly.ssh.allowedSubnets ≠ [] ∧
    (∃ since found, s.record.take 2 = since ++ [.vetted (loginAt "10.0.0.1") found] ∧
      Answering none since (loginAt "10.0.0.1") ∧
      (∀ a, Net.literal? "10.0.0.1" = some a → found = .ok [a]) ∧
      Net.judge tenOnly.ssh.allowedSubnets "10.0.0.1" found = .ok ()) ∧
    s.record.drop 12 = .sent (.sshError "Connections to 11.0.0.1 (11.0.0.1) are not allowed") ::
      farewell ∧ s.phase = .closed := by
  intro s
  have hn : tenOnly.ssh.allowedSubnets ≠ [] := by decide
  have h := connect_after_vetting tenOnly hn ({} : Script) none []
    [authAt "10.0.0.1", .settle, authAt "11.0.0.1"]
  exact ⟨hn,
    h.1 (s.record.take 2) (loginAt "10.0.0.1") (.ok ()) (s.record.drop 3) (by decide +kernel),
    h.2 (s.record.take 11) (loginAt "11.0.0.1") (.ok [.v4 0x0b000001#32])
      (.outside "11.0.0.1" (.v4 0x0b000001#32)) (s.record.drop 12) (by decide +kernel)
      (by decide +kernel)⟩

end Session

end TerminalGateway

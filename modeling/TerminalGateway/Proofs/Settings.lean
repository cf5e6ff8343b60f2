import Mathlib.Data.List.Nodup
import TerminalGateway.Proofs.Net.Entries
import TerminalGateway.Proofs.Net.Membership
import TerminalGateway.Proofs.Numeral.Digits
import TerminalGateway.Proofs.Restriction

/-!
Which settings a process is given, and when it refuses to start. Each setting is read from a
variable of its own and from no other. The listen address is looked at first, and then the entries
of the list of networks one by one; nothing else can keep a gateway from starting.
-/

namespace TerminalGateway

/-- A variable is set to a text. -/
def Variables.Says (env : Variables) (name : String) (cs : List Char) : Prop :=
  env.value? name = some (Text.Utf8.encode cs)

theorem Variables.text?_eq_some_iff {env : Variables} {name s : String} :
    env.text? name = some s ↔ env.Says name s.toList := by
  rw [text?_eq, Says]
  cases env.value? name with
  | none => simp
  | some bytes =>
      rw [Option.bind_some, Option.map_eq_some_iff, Option.some.injEq]
      simp only [Text.Utf8.decode?_eq_some_iff]
      constructor
      · rintro ⟨cs, rfl, rfl⟩
        rw [String.toList_ofList]
      · rintro rfl
        exact ⟨_, rfl, String.ofList_toList⟩

theorem Variables.Says.text? {env : Variables} {name : String} {cs : List Char}
    (h : env.Says name cs) : env.text? name = some (String.ofList cs) :=
  text?_eq_some_iff.mpr (by rwa [String.toList_ofList])

/-- A number in the range of its type, with any blanks around it. -/
def NumberText (limit n : Nat) (cs : List Char) : Prop :=
  ∃ ds, Text.Padded ds cs ∧ Numeral.Writes limit n ds

theorem trimmed_of_writes {limit n : Nat} {ds : List Char} (h : Numeral.Writes limit n ds) :
    Text.Trimmed ds := by
  have hdigit : ∀ d < 10, Text.isBlank d.digitChar = false := by decide
  refine Text.trimmed_of_forall ?_
  obtain ⟨_, rfl | rfl, ⟨-, hd⟩, -⟩ := h
  · exact List.forall_mem_map.mpr fun d hm => hdigit d (hd d hm)
  · refine List.forall_mem_cons.mpr ⟨by decide, ?_⟩
    exact List.forall_mem_map.mpr fun d hm => hdigit d (hd d hm)

theorem numberText_iff {limit n : Nat} {cs : List Char} :
    NumberText limit n cs ↔ Numeral.read? limit (Text.trim cs) = some n := by
  rw [Numeral.read?_eq_some_iff]
  constructor
  · rintro ⟨ds, hpadded, hds⟩
    rwa [hpadded.trim (trimmed_of_writes hds)]
  · exact fun h => ⟨_, Text.padded_trim cs, h⟩

section Meaning

variable {env : Variables} {name : String} {cs : List Char} (hs : env.Says name cs)
include hs

theorem Variables.number_of_says (limit standard : Nat) :
    NumberText limit (env.number name limit standard) cs ∨
      (∀ n, ¬ NumberText limit n cs) ∧ env.number name limit standard = standard := by
  have hnumber : env.number name limit standard =
      (Numeral.read? limit (Text.trim cs)).getD standard := by
    rw [number, hs.text?, Option.bind_some, String.toList_ofList]
  simp only [hnumber, numberText_iff]
  cases Numeral.read? limit (Text.trim cs) with
  | none => simp
  | some n => simp

theorem Variables.switch_of_says (standard : Bool) : env.switch name standard = true ↔
    cs = ['1'] ∨ cs.map Char.toLower = ['t', 'r', 'u', 'e'] := by
  have htrue : "true".toList.map Char.toLower = ['t', 'r', 'u', 'e'] := by decide
  have hone : String.ofList cs = "1" ↔ cs = ['1'] := by
    rw [← String.toList_inj, String.toList_ofList]
    rfl
  simp only [switch, hs.text?, Text.sameWord, htrue, String.toList_ofList, Bool.or_eq_true,
    beq_iff_eq, decide_eq_true_eq, hone]
  exact or_comm

theorem Variables.nonempty?_of_says :
    env.nonempty? name = if cs = [] then none else some (String.ofList cs) := by
  rw [nonempty?, hs.text?]
  cases cs with
  | nil => rfl
  | cons c cs => simp [Option.filter]

end Meaning

section Reading

variable {env env' : Variables} {name : String} (h : env.text? name = env'.text? name)
include h

theorem Variables.number_congr (limit standard : Nat) :
    env.number name limit standard = env'.number name limit standard := by
  rw [number, number, h]

theorem Variables.switch_congr (standard : Bool) :
    env.switch name standard = env'.switch name standard := by
  rw [switch, switch, h]

theorem Variables.nonempty?_congr : env.nonempty? name = env'.nonempty? name := by
  rw [nonempty?, nonempty?, h]

theorem Config.listenAddressOf_congr (hname : name = listenVariable) :
    listenAddressOf env = listenAddressOf env' := by
  subst hname
  rw [listenAddressOf.eq_def, listenAddressOf.eq_def, h]

end Reading

namespace Config

open Net

/-! ### The settings -/

inductive NumberSetting
  | listenPort
  | targetPort
  | readyTimeout
  | keepaliveInterval
  | keepaliveCount
  | shutdownGrace

namespace NumberSetting

def variableName : NumberSetting → String
  | listenPort => "WEBSSH_PORT"
  | targetPort => "SSH_PORT"
  | readyTimeout => "SSH_READY_TIMEOUT_MS"
  | keepaliveInterval => "SSH_KEEPALIVE_INTERVAL_MS"
  | keepaliveCount => "SSH_KEEPALIVE_COUNT_MAX"
  | shutdownGrace => "WEBSSH_SHUTDOWN_GRACE_SECS"

/-- The greatest number of its type. -/
def limit : NumberSetting → Nat
  | listenPort | targetPort => 2 ^ 16 - 1
  | _ => 2 ^ 64 - 1

def of : NumberSetting → Config → Nat
  | listenPort, c => c.listenPort
  | targetPort, c => c.ssh.defaultPort
  | readyTimeout, c => c.ssh.readyTimeout
  | keepaliveInterval, c => c.ssh.keepaliveInterval
  | keepaliveCount, c => c.ssh.keepaliveCount
  | shutdownGrace, c => c.shutdownGrace

end NumberSetting

inductive SwitchSetting
  | compression
  | autoLog
  | allowReplay
  | allowReconnect
  | allowReauth
  | replayCrlf

namespace SwitchSetting

def variableName : SwitchSetting → String
  | compression => "SSH_COMPRESSION"
  | autoLog => "WEBSSH_AUTO_LOG"
  | allowReplay => "WEBSSH_ALLOW_REPLAY"
  | allowReconnect => "WEBSSH_ALLOW_RECONNECT"
  | allowReauth => "WEBSSH_ALLOW_REAUTH"
  | replayCrlf => "WEBSSH_REPLAY_CRLF"

def of : SwitchSetting → Config → Bool
  | compression, c => c.ssh.compress
  | autoLog, c => c.permissions.autoLog
  | allowReplay, c => c.permissions.allowReplay
  | allowReconnect, c => c.permissions.allowReconnect
  | allowReauth, c => c.permissions.allowReauth
  | replayCrlf, c => c.replayCrlf

end SwitchSetting

inductive Setting
  | listenAddress
  | number (s : NumberSetting)
  | switch (s : SwitchSetting)
  | targetHost
  | terminal
  | networks
  | environmentNames

namespace Setting

def variableName : Setting → String
  | listenAddress => "WEBSSH_LISTEN_ADDR"
  | number s => s.variableName
  | switch s => s.variableName
  | targetHost => "SSH_HOST"
  | terminal => "SSH_TERM"
  | networks => "SSH_ALLOWED_SUBNETS"
  | environmentNames => "SSH_ENV_ALLOWLIST"

def Value : Setting → Type
  | listenAddress => Address
  | number _ => Nat
  | switch _ => Bool
  | targetHost => Option String
  | terminal => String
  | networks => List Subnet
  | environmentNames => List String

def of : (s : Setting) → Config → s.Value
  | listenAddress, c => c.listenAddress
  | number s, c => s.of c
  | switch s, c => s.of c
  | targetHost, c => c.ssh.defaultHost
  | terminal, c => c.ssh.term
  | networks, c => c.ssh.allowedSubnets
  | environmentNames, c => c.ssh.envAllowlist

def all : List Setting :=
  [listenAddress, number .listenPort, number .targetPort, number .readyTimeout,
    number .keepaliveInterval, number .keepaliveCount, number .shutdownGrace, switch .compression,
    switch .autoLog, switch .allowReplay, switch .allowReconnect, switch .allowReauth,
    switch .replayCrlf, targetHost, terminal, networks, environmentNames]

theorem mem_all (s : Setting) : s ∈ all := by
  cases s with
  | number s | switch s => cases s <;> simp [all]
  | _ => simp [all]

theorem variableName_injective : Function.Injective variableName := by
  have hnodup : (all.map variableName).Nodup := by decide
  intro s t h
  exact List.inj_on_of_nodup_map hnodup (mem_all s) (mem_all t) h

/-- There is nothing else in the settings of a gateway. -/
theorem ext {c d : Config} (h : ∀ s : Setting, s.of c = s.of d) : c = d := by
  have hall : ∀ s ∈ all, s.of c = s.of d := fun s _ => h s
  simp only [all, List.forall_mem_cons, of, NumberSetting.of, SwitchSetting.of] at hall
  rcases c with ⟨_, _, ⟨_, _, _, _, _, _, _, _, _⟩, ⟨_, _, _, _⟩, _, _⟩
  rcases d with ⟨_, _, ⟨_, _, _, _, _, _, _, _, _⟩, ⟨_, _, _, _⟩, _, _⟩
  simp_all

end Setting

variable {env env' : Variables} {config config' : Config}

/-- A setting is the same wherever its variable is. -/
theorem of_eq_of_text? (h : ofVariables env = .ok config) (h' : ofVariables env' = .ok config')
    (s : Setting) (ht : env.text? s.variableName = env'.text? s.variableName) :
    s.of config = s.of config' := by
  simp only [ofVariables, bind_eq_ok] at h h'
  obtain ⟨a, ha, nets, hnets, heq⟩ := h
  obtain ⟨a', ha', nets', hnets', heq'⟩ := h'
  obtain rfl := Except.ok.inj heq
  obtain rfl := Except.ok.inj heq'
  cases s with
  | listenAddress =>
      rw [listenAddressOf_congr ht rfl, ha'] at ha
      exact (Except.ok.inj ha).symm
  | number s => cases s <;> exact Variables.number_congr ht _ _
  | switch s => cases s <;> exact Variables.switch_congr ht _
  | targetHost => exact Variables.nonempty?_congr ht
  | terminal => exact congrArg (·.getD "xterm-color") (Variables.nonempty?_congr ht)
  | networks =>
      have htext : env.text? subnetVariable = env'.text? subnetVariable := ht
      rw [htext, hnets'] at hnets
      exact (Except.ok.inj hnets).symm
  | environmentNames =>
      exact congrArg (fun text : Option String => (entries (text.getD "")).map String.ofList) ht

theorem of_eq_of_value? (h : ofVariables env = .ok config) (h' : ofVariables env' = .ok config')
    (s : Setting) (hv : env.value? s.variableName = env'.value? s.variableName) :
    s.of config = s.of config' :=
  of_eq_of_text? h h' s (by rw [Variables.text?_eq, Variables.text?_eq, hv])

theorem of_eq_standard (h : ofVariables env = .ok config) {s : Setting}
    (hs : ∀ cs, ¬ env.Says s.variableName cs) : s.of config = s.of standard := by
  have ht : env.text? s.variableName = none := Option.eq_none_iff_forall_not_mem.mpr
    fun _ ht => hs _ (Variables.text?_eq_some_iff.mp ht)
  exact of_eq_of_text? h ofVariables_nil s ht

/-! ### What the variables say -/

/-- What the text of a variable makes of its setting. A number may have blanks around it, and so may
an entry of a list; the words that turn a switch on may not. -/
def Setting.Takes : (s : Setting) → List Char → s.Value → Prop
  | listenAddress, cs, a => AddressText .plain a cs
  | number s, cs, n => NumberText s.limit n cs ∨
      (∀ m, ¬ NumberText s.limit m cs) ∧ n = s.of standard
  | switch _, cs, b => b = true ↔ cs = ['1'] ∨ cs.map Char.toLower = ['t', 'r', 'u', 'e']
  | targetHost, cs, host => host = if cs = [] then none else some (String.ofList cs)
  | terminal, cs, term => term = if cs = [] then standard.ssh.term else String.ofList cs
  | networks, cs, nets => ∃ es, ListText es cs ∧
      List.Forall₂ (fun entry net => ∃ a n, EntryText a n entry ∧ net = .around a n) es nets
  | environmentNames, cs, names => ListText (names.map String.toList) cs

theorem addressText_of_listenAddressOf {a : Address} {cs : List Char}
    (h : listenAddressOf env = .ok a) (hs : env.Says listenVariable cs) :
    AddressText .plain a cs := by
  rw [listenAddressOf, hs.text?] at h
  simp only [String.toList_ofList] at h
  cases hread : Address.ofText? cs with
  | none => simp [hread] at h
  | some b =>
      rw [hread] at h
      obtain rfl := Except.ok.inj h
      exact Address.ofText?_eq_some_iff.mp hread

theorem takes_of_says (h : ofVariables env = .ok config) {s : Setting} {cs : List Char}
    (hs : env.Says s.variableName cs) : s.Takes cs (s.of config) := by
  have hnets := subnetsOf_of_ofVariables h
  simp only [ofVariables, bind_eq_ok] at h
  obtain ⟨a, ha, nets, -, heq⟩ := h
  obtain rfl := Except.ok.inj heq
  cases s with
  | listenAddress => exact addressText_of_listenAddressOf ha hs
  | number s => cases s <;> exact Variables.number_of_says hs _ _
  | switch s => cases s <;> exact Variables.switch_of_says hs _
  | targetHost => exact Variables.nonempty?_of_says hs
  | terminal =>
      refine (congrArg (·.getD "xterm-color") (Variables.nonempty?_of_says hs)).trans ?_
      split <;> rfl
  | networks =>
      have ht : env.text? subnetVariable = some (String.ofList cs) := hs.text?
      rw [ht, Option.getD_some] at hnets
      exact ⟨_, listText_iff.mpr rfl,
        (subnetsOf_eq_ok_iff.mp hnets).imp fun _ _ => Subnet.ofText?_eq_some_iff.mp⟩
  | environmentNames =>
      have ht : env.text? "SSH_ENV_ALLOWLIST" = some (String.ofList cs) := hs.text?
      exact listText_iff.mpr (by simp [Setting.of, ht, Function.comp_def])

/-! ### Refusals -/

/-- What is wrong with the variables of a process, the listen address first. -/
inductive Refusal (env : Variables) : ConfigError → Prop
  | listen {cs : List Char} (hs : env.Says Setting.listenAddress.variableName cs)
      (h : ¬ ∃ a, AddressText .plain a cs) :
      Refusal env (.invalidListenAddress (String.ofList cs))
  | network {cs entry : List Char} {before after : List (List Char)}
      (hl : ∀ cs, env.Says Setting.listenAddress.variableName cs → ∃ a, AddressText .plain a cs)
      (hs : env.Says Setting.networks.variableName cs)
      (he : ListText (before ++ entry :: after) cs)
      (hb : ∀ e ∈ before, ∃ a n, EntryText a n e) (h : ¬ ∃ a n, EntryText a n entry) :
      Refusal env (.invalidSubnet Setting.networks.variableName (String.ofList entry))

theorem listenAddressOf_eq_error_iff {e : ConfigError} : listenAddressOf env = .error e ↔
    ∃ cs, env.Says listenVariable cs ∧ (¬ ∃ a, AddressText .plain a cs) ∧
      e = .invalidListenAddress (String.ofList cs) := by
  simp only [← Address.ofText?_eq_some_iff]
  constructor
  · intro h
    unfold listenAddressOf at h
    split at h
    · cases h
    · rename_i s hs
      split at h
      · cases h
      · rename_i hread
        obtain rfl := Except.error.inj h
        refine ⟨s.toList, Variables.text?_eq_some_iff.mp hs, ?_, by rw [String.ofList_toList]⟩
        simp [hread]
  · rintro ⟨cs, hs, hread, rfl⟩
    have hnone : Address.ofText? cs = none := Option.eq_none_iff_forall_not_mem.mpr
      fun a ha => hread ⟨a, ha⟩
    simp only [listenAddressOf, hs.text?, String.toList_ofList, hnone]

theorem exists_listenAddressOf_iff : (∃ a, listenAddressOf env = .ok a) ↔
    ∀ cs, env.Says listenVariable cs → ∃ a, AddressText .plain a cs := by
  cases h : listenAddressOf env with
  | ok a =>
      refine iff_of_true ⟨a, rfl⟩ fun cs hs => by_contra fun hno => ?_
      cases h.symm.trans (listenAddressOf_eq_error_iff.mpr ⟨cs, hs, hno, rfl⟩)
  | error e =>
      obtain ⟨cs, hs, hno, -⟩ := listenAddressOf_eq_error_iff.mp h
      exact iff_of_false (by simp) fun hall => hno (hall cs hs)

theorem exists_entryText_iff {entry : List Char} :
    (∃ a n, EntryText a n entry) ↔ (Subnet.ofText? entry).isSome = true := by
  simp only [Option.isSome_iff_exists, Subnet.ofText?_eq_some_iff]
  constructor
  · rintro ⟨a, n, htext⟩
    exact ⟨_, a, n, htext, rfl⟩
  · rintro ⟨_, a, n, htext, -⟩
    exact ⟨a, n, htext⟩

theorem subnetsOf_eq_error_iff_find? {es : List (List Char)} {e : ConfigError} :
    subnetsOf es = .error e ↔
      ∃ entry, es.find? (fun entry => (Subnet.ofText? entry).isNone) = some entry ∧
        e = .invalidSubnet subnetVariable (String.ofList entry) := by
  induction es with
  | nil => simp [subnetsOf]
  | cons entry es ih =>
      cases hread : Subnet.ofText? entry with
      | none => simp [subnetsOf, hread, eq_comm]
      | some net =>
          have hrest : subnetsOf (entry :: es) = .error e ↔ subnetsOf es = .error e := by
            rw [subnetsOf, hread]
            cases subnetsOf es <;> simp [Except.map]
          rw [hrest, ih, List.find?_cons_of_neg (by simp [hread])]

theorem subnetsOf_eq_error_iff {es : List (List Char)} {e : ConfigError} :
    subnetsOf es = .error e ↔ ∃ before entry after, es = before ++ entry :: after ∧
      (∀ b ∈ before, ∃ a n, EntryText a n b) ∧ (¬ ∃ a n, EntryText a n entry) ∧
        e = .invalidSubnet subnetVariable (String.ofList entry) := by
  rw [subnetsOf_eq_error_iff_find?]
  simp only [exists_entryText_iff, List.find?_eq_some_iff_append, Bool.not_eq_true',
    Option.isNone_eq_false_iff, Bool.not_eq_true, Option.isSome_eq_false_iff]
  constructor
  · rintro ⟨entry, ⟨hno, before, after, rfl, hb⟩, rfl⟩
    exact ⟨before, entry, after, rfl, hb, hno, rfl⟩
  · rintro ⟨before, entry, after, rfl, hb, hno, rfl⟩
    exact ⟨entry, ⟨hno, before, after, rfl, hb⟩, rfl⟩

theorem ofVariables_eq_error_iff {e : ConfigError} :
    ofVariables env = .error e ↔ Refusal env e := by
  simp only [ofVariables, bind_eq_error]
  constructor
  · rintro (hlisten | ⟨address, haddress, hnets | ⟨_, -, hdone⟩⟩)
    · obtain ⟨cs, hs, hno, rfl⟩ := listenAddressOf_eq_error_iff.mp hlisten
      exact .listen hs hno
    · obtain ⟨before, entry, after, hentries, hb, hno, rfl⟩ := subnetsOf_eq_error_iff.mp hnets
      cases ht : env.text? subnetVariable with
      | none =>
          have hempty : entries "" = [] := by decide
          simp [ht, hempty] at hentries
      | some list =>
          rw [ht, Option.getD_some, ← @String.ofList_toList list] at hentries
          exact .network (exists_listenAddressOf_iff.mp ⟨address, haddress⟩)
            (Variables.text?_eq_some_iff.mp ht) (listText_iff.mpr hentries) hb hno
    · cases hdone
  · rintro (⟨hs, hno⟩ | ⟨hl, hs, hentries, hb, hno⟩)
    · exact .inl (listenAddressOf_eq_error_iff.mpr ⟨_, hs, hno, rfl⟩)
    · obtain ⟨address, haddress⟩ := exists_listenAddressOf_iff.mpr hl
      refine .inr ⟨address, haddress, .inl ?_⟩
      have ht : env.text? subnetVariable = _ := hs.text?
      rw [ht, Option.getD_some]
      exact subnetsOf_eq_error_iff.mpr ⟨_, _, _, listText_iff.mp hentries, hb, hno, rfl⟩

/-- What is read from the variables of a process that starts. -/
structure ByVariables (env : Variables) (config : Config) : Prop where
  said : ∀ (s : Setting) cs, env.Says s.variableName cs → s.Takes cs (s.of config)
  unsaid : ∀ s : Setting, (∀ cs, ¬ env.Says s.variableName cs) → s.of config = s.of standard
  alone : ∀ {env' config'}, ofVariables env' = .ok config' → ∀ s : Setting,
    env.value? s.variableName = env'.value? s.variableName → s.of config = s.of config'
  whole : ∀ {env' config'}, ofVariables env' = .ok config' →
    (∀ s : Setting, env.value? s.variableName = env'.value? s.variableName) → config = config'

theorem byVariables_of_ofVariables (h : ofVariables env = .ok config) :
    ByVariables env config where
  said _ _ hs := takes_of_says h hs
  unsaid _ hs := of_eq_standard h hs
  alone h' s hv := of_eq_of_value? h h' s hv
  whole h' hv := Setting.ext fun s => of_eq_of_value? h h' s (hv s)

/-- A process refuses to start only for its listen address or for the first entry of its list that
is no network; otherwise each setting is what its own variable says. A variable whose octets are no
text says nothing. -/
theorem ofVariables_by_variable (env : Variables) :
    (∀ e, ofVariables env = .error e ↔ Refusal env e) ∧
      ((∀ e, ¬ Refusal env e) → ∃ config, ofVariables env = .ok config ∧ ByVariables env config) ∧
      Function.Injective Setting.variableName := by
  refine ⟨fun e => ofVariables_eq_error_iff, fun hno => ?_, Setting.variableName_injective⟩
  cases h : ofVariables env with
  | error e => exact absurd (ofVariables_eq_error_iff.mp h) (hno e)
  | ok config => exact ⟨config, rfl, byVariables_of_ofVariables h⟩

/-- A list of networks beside a port with blanks around it and one that is too great. -/
def givenNetworks (list : String) : Variables :=
  [("SSH_ALLOWED_SUBNETS", Text.Utf8.encode list.toList),
    ("WEBSSH_PORT", Text.Utf8.encode " +8022 ".toList),
    ("SSH_PORT", Text.Utf8.encode "65536".toList)]

/-- The first of two prefixes that are too long is told, behind a network that is right. -/
theorem ofVariables_by_variable_malformed :
    let nets := [Subnet.v4 0x0a000000 8, .v4 0x0a000001 32]
    let mended := givenNetworks " 10.0.0.0/8 ,\t, 10.0.0.1/32"
    ofVariables (givenNetworks " 10.0.0.0/8 ,\t, 10.0.0.1/33 ,::1/129") =
        .error (.invalidSubnet "SSH_ALLOWED_SUBNETS" "10.0.0.1/33") ∧
      ∃ config, ofVariables mended = .ok config ∧ ByVariables mended config ∧
        config = { standard with
          listenPort := 8022, ssh := { standard.ssh with allowedSubnets := nets } } := by
  intro nets mended
  constructor
  · have hl : (givenNetworks " 10.0.0.0/8 ,\t, 10.0.0.1/33 ,::1/129").value?
        "WEBSSH_LISTEN_ADDR" = none := by decide
    have hgood : ∃ a n, EntryText a n "10.0.0.0/8".toList :=
      exists_entryText_iff.mpr (by decide +kernel)
    have hbad : ¬ ∃ a n, EntryText a n "10.0.0.1/33".toList := fun h =>
      absurd (exists_entryText_iff.mp h) (by decide +kernel)
    have hentries : ListText (["10.0.0.0/8".toList] ++ "10.0.0.1/33".toList :: ["::1/129".toList])
        " 10.0.0.0/8 ,\t, 10.0.0.1/33 ,::1/129".toList := listText_iff.mpr (by decide +kernel)
    have hrefusal := Refusal.network (fun cs hs => absurd (hl.symm.trans hs) (by simp)) rfl
      hentries (List.forall_mem_singleton.mpr hgood) hbad
    rw [String.ofList_toList] at hrefusal
    exact ((ofVariables_by_variable _).1 _).mpr hrefusal
  · have hstarts : ofVariables mended = .ok { standard with
        listenPort := 8022, ssh := { standard.ssh with allowedSubnets := nets } } := by
      decide +kernel
    have hno : ∀ e, ¬ Refusal mended e := fun e hr => by
      cases hstarts.symm.trans (((ofVariables_by_variable mended).1 e).mpr hr)
    obtain ⟨config, hconfig, hby⟩ := (ofVariables_by_variable mended).2.1 hno
    exact ⟨config, hconfig, hby, Except.ok.inj (hconfig.symm.trans hstarts)⟩

end Config

end TerminalGateway

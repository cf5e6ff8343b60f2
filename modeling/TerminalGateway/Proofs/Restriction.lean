import TerminalGateway.Proofs.Config
import TerminalGateway.Proofs.Text.Split
import TerminalGateway.Proofs.Text.Utf8

/-!
When a gateway is not restricted in its targets. A list of networks without an entry restricts
nothing; so does a value that is not text, which counts as a variable that is not set. Every other
value names a network, or keeps the gateway from starting.
-/

namespace TerminalGateway

/-- A character that belongs to no entry of a list with commas. -/
def Net.isFiller (c : Char) : Bool := c = ',' || Text.isBlank c

theorem Net.entries_eq_nil_iff {list : String} :
    entries list = [] ↔ ∀ c ∈ list.toList, isFiller c = true := by
  have hfiller : ∀ c, isFiller c = true ↔ c = ',' ∨ Text.isBlank c = true := by
    simp [isFiller]
  simp only [hfiller, entries, List.filter_eq_nil_iff, List.forall_mem_map, ← Text.forall_pieces]
  simp only [Bool.not_eq_true', List.isEmpty_eq_false_iff, not_not, ne_eq, Text.trim_eq_nil_iff]

/-- The octets of a variable. -/
def Variables.value? (env : Variables) (name : String) : Option Octets :=
  (env.find? fun v => v.1 = name).map (·.2)

theorem Variables.text?_eq (env : Variables) (name : String) :
    env.text? name = ((env.value? name).bind Text.Utf8.decode?).map String.ofList := by
  rw [text?, value?, Option.bind_map]
  rfl

/-- Octets that are the text of some list without an entry. -/
def Net.IsHollow (bytes : Octets) : Prop :=
  ∃ cs, bytes = Text.Utf8.encode cs ∧ ∀ c ∈ cs, isFiller c = true

namespace Config

/-- Each entry of a list that is read gives a network. -/
theorem length_of_subnetsOf {entries : List (List Char)} {nets : List Net.Subnet}
    (h : subnetsOf entries = .ok nets) : nets.length = entries.length :=
  (subnetsOf_eq_ok_iff.mp h).length_eq.symm

theorem subnetsOf_of_ofVariables {env : Variables} {config : Config}
    (h : ofVariables env = .ok config) :
    subnetsOf (Net.entries ((env.text? subnetVariable).getD "")) =
      .ok config.ssh.allowedSubnets := by
  simp only [ofVariables, bind_eq_ok] at h
  obtain ⟨_, -, nets, hnets, heq⟩ := h
  obtain rfl := Except.ok.inj heq
  exact hnets

/-- A gateway that starts is restricted exactly if it was given a value that is text and has more in
it than separators and blanks. -/
theorem allowedSubnets_eq_nil_iff {env : Variables} {config : Config}
    (h : ofVariables env = .ok config) :
    config.ssh.allowedSubnets = [] ↔
      ∀ bytes, env.value? subnetVariable = some bytes →
        Net.IsHollow bytes ∨ ∀ cs, bytes ≠ Text.Utf8.encode cs := by
  have hlength := length_of_subnetsOf (subnetsOf_of_ofVariables h)
  have hnil : config.ssh.allowedSubnets = [] ↔
      Net.entries ((env.text? subnetVariable).getD "") = [] := by
    rw [← List.length_eq_zero_iff, hlength, List.length_eq_zero_iff]
  rw [hnil, Net.entries_eq_nil_iff, Variables.text?_eq]
  cases hv : env.value? subnetVariable with
  | none => simp
  | some bytes =>
      simp only [Option.bind_some, Option.some.injEq, forall_eq']
      cases hd : Text.Utf8.decode? bytes with
      | none =>
          have hno : ∀ cs, bytes ≠ Text.Utf8.encode cs := by
            intro cs heq
            rw [Text.Utf8.decode?_eq_some_iff.mpr heq] at hd
            cases hd
          simp [hno]
      | some cs =>
          obtain rfl := Text.Utf8.decode?_eq_some_iff.mp hd
          have hinj : ∀ cs', Text.Utf8.encode cs = Text.Utf8.encode cs' → cs = cs' := by
            intro cs' heq
            rw [Text.Utf8.decode?_eq_some_iff.mpr heq] at hd
            exact (Option.some.inj hd).symm
          simp only [Option.map_some, Option.getD_some, String.toList_ofList, Net.IsHollow]
          constructor
          · exact fun hf => .inl ⟨cs, rfl, hf⟩
          · rintro (⟨cs', heq, hf⟩ | hno)
            · exact hinj cs' heq ▸ hf
            · exact absurd rfl (hno cs)

/-- One network, with blanks around it and a separator behind it. -/
def oneNetwork : Variables := [(subnetVariable, Text.Utf8.encode " 10.0.0.0/8 , ".toList)]

theorem allowedSubnets_eq_nil_iff_restricted :
    ∃ config bytes, ofVariables oneNetwork = .ok config ∧
      config.ssh.allowedSubnets = [.v4 0x0a000000 8] ∧
      oneNetwork.value? subnetVariable = some bytes ∧ ¬ Net.IsHollow bytes ∧
        ∃ cs, bytes = Text.Utf8.encode cs := by
  have h : ofVariables oneNetwork = .ok { standard with
      ssh := { standard.ssh with allowedSubnets := [.v4 0x0a000000 8] } } := by
    decide +kernel
  have hnot := mt (allowedSubnets_eq_nil_iff h).mpr (by simp)
  simp only [not_forall, not_or, not_not, ne_eq] at hnot
  obtain ⟨bytes, hbytes, hfull, htext⟩ := hnot
  exact ⟨_, bytes, h, rfl, hbytes, hfull, htext⟩

/-- A network, and an octet behind it that no text has. -/
def strayOctet : Variables :=
  [(subnetVariable, Text.Utf8.encode "10.0.0.0/8".toList ++ [0xff])]

/-- A gateway whose restriction is not text starts without one. -/
theorem unrestricted_strayOctet :
    ∃ bytes, strayOctet.value? subnetVariable = some bytes ∧ ¬ Net.IsHollow bytes ∧
      ofVariables strayOctet = .ok standard ∧ standard.ssh.allowedSubnets = [] := by
  refine ⟨_, rfl, ?_, by decide +kernel, rfl⟩
  rintro ⟨cs, heq, -⟩
  have hnone : Text.Utf8.decode? (Text.Utf8.encode "10.0.0.0/8".toList ++ [0xff]) = none := by
    decide +kernel
  rw [Text.Utf8.decode?_eq_some_iff.mpr heq] at hnone
  cases hnone

end Config

end TerminalGateway

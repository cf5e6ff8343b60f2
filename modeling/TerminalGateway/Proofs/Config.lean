import Mathlib.Data.List.Forall2
import TerminalGateway.Config
import TerminalGateway.Proofs.Numeral.Digits

/-!
Bounds on the settings that a process was given, the networks that it reads from a list, and the
settings of a process that was given none.
-/

namespace TerminalGateway

theorem bind_eq_ok {ε α β : Type} {x : Except ε α} {k : α → Except ε β} {b : β} :
    (x >>= k) = .ok b ↔ ∃ a, x = .ok a ∧ k a = .ok b := by
  cases x <;> simp [Bind.bind, Except.bind]

theorem bind_eq_error {ε α β : Type} {x : Except ε α} {k : α → Except ε β} {e : ε} :
    (x >>= k) = .error e ↔ x = .error e ∨ ∃ a, x = .ok a ∧ k a = .error e := by
  cases x <;> simp [Bind.bind, Except.bind]

theorem Variables.number_le (env : Variables) (name : String) {limit standard : Nat}
    (h : standard ≤ limit) : env.number name limit standard ≤ limit := by
  unfold number
  cases hr : (env.text? name).bind fun s => Numeral.read? limit (Text.trim s.toList) with
  | none => exact h
  | some n =>
      obtain ⟨s, -, hs⟩ := Option.bind_eq_some_iff.mp hr
      exact Numeral.le_of_read? hs

theorem Config.defaultPort_le {env : Variables} {config : Config}
    (h : ofVariables env = .ok config) : config.ssh.defaultPort ≤ 65535 := by
  simp only [ofVariables, bind_eq_ok] at h
  obtain ⟨_, -, _, -, heq⟩ := h
  obtain rfl := Except.ok.inj heq
  exact Variables.number_le env "SSH_PORT" (by decide)

/-- A list that is read gives one network for each entry, in their order. -/
theorem Config.subnetsOf_eq_ok_iff {entries : List (List Char)} {nets : List Net.Subnet} :
    subnetsOf entries = .ok nets ↔
      List.Forall₂ (fun entry net => Net.Subnet.ofText? entry = some net) entries nets := by
  induction entries generalizing nets with
  | nil =>
      rw [List.forall₂_nil_left_iff, subnetsOf]
      exact ⟨fun h => (Except.ok.inj h).symm, fun h => h ▸ rfl⟩
  | cons entry rest ih =>
      simp only [List.forall₂_cons_left_iff, ← ih, subnetsOf]
      cases Net.Subnet.ofText? entry with
      | none => simp
      | some net => cases subnetsOf rest <;> simp [Except.map, eq_comm]

/-- The settings of a process none of whose variables is set. -/
def Config.standard : Config where
  listenAddress := .v4 0
  listenPort := 2222
  ssh := {
    defaultHost := none
    defaultPort := 22
    term := "xterm-color"
    readyTimeout := 20000
    keepaliveInterval := 120000
    keepaliveCount := 10
    compress := true
    allowedSubnets := []
    envAllowlist := [] }
  permissions :=
    { autoLog := false, allowReplay := false, allowReconnect := true, allowReauth := true }
  replayCrlf := false
  shutdownGrace := 300

theorem Config.ofVariables_nil : ofVariables [] = .ok standard := rfl

end TerminalGateway

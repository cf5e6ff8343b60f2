import TerminalGateway.Proofs.Credentials
import TerminalGateway.Proofs.Net.Literal
import TerminalGateway.Session.Scripted

/-!
The target that is checked and the one that is dialled. A host goes on to the server side as it is
kept, so the two agree on an address only where no bracket was left around it.
-/

namespace TerminalGateway

theorem exists_bracketed_of_brought {c : Credentials} (hc : Brought c) {a : Net.Address}
    (hl : Net.literal? c.host = some a) :
    ∃ raw m n t, HostGiven raw c ∧ Net.Address.ofText? t = some a ∧
      raw.toList = Net.bracketed m n t ∧
      Net.Address.ofText? c.host.toList = if m = n ∧ m ≤ 1 then some a else none := by
  obtain ⟨m, n, t, hcs, ht⟩ := Net.literal?_eq_some_iff.mp hl
  obtain ⟨raw, hg, hhost⟩ := hc.hostGiven
  have hread := Net.ofText?_bracketed ht m n
  rw [← hcs] at hread
  rcases Credentials.unbracket_cases raw with ⟨inner, ⟨-, hraw⟩, hinner⟩ | ⟨hnot, hsame⟩
  · refine ⟨raw, m + 1, n + 1, t, hg, ht, ?_, ?_⟩
    · rw [hraw, ← hinner, ← hhost, hcs, Net.bracketed_succ]
    · rw [hread]
      congr 1
      exact propext (by omega)
  · have hraw : raw.toList = Net.bracketed m n t := by rw [← hsame, ← hhost, hcs]
    refine ⟨raw, m, n, t, hg, ht, hraw, ?_⟩
    -- one pair of brackets would have been taken off
    have hone : ¬ (m = 1 ∧ n = 1) := by
      rintro ⟨rfl, rfl⟩
      exact hnot t ⟨Net.ne_nil_of_ofText? ht, by simpa [Net.bracketed] using hraw⟩
    rw [hread]
    congr 1
    exact propext (by omega)

/-- What is dialled after a host was accepted as an address: the host as it is kept, which is that
address exactly if the host was given with no bracket or with one pair of them. -/
theorem dialled_of_literal {ρ : Type} [Remote ρ] {c : Credentials} (hc : Brought c)
    {nets : List Net.Subnet} (hn : nets ≠ []) {a : Net.Address}
    (hl : Net.literal? c.host = some a) {lookup : Net.Lookup}
    (hk : Net.checkTarget lookup nets c.host = .ok ()) :
    (∃ net ∈ nets, net.contains a = true) ∧
    (∃ raw m n t, HostGiven raw c ∧ Net.Address.ofText? t = some a ∧
      raw.toList = Net.bracketed m n t ∧
      Net.Address.ofText? c.host.toList = if m = n ∧ m ≤ 1 then some a else none) ∧
    ∀ s : Session ρ, s.config.ssh.allowedSubnets = nets →
      (s.approach c).record =
        s.record ++ [.vetted c (.ok [a]), .called (.connect c) (.ok ())] := by
  have hj : Net.judge nets c.host (.ok [a]) = .ok () := by simpa [Net.checkTarget, hl] using hk
  refine ⟨Net.judge_one_eq_ok_iff.mp hj, exists_bracketed_of_brought hc hl, ?_⟩
  rintro s rfl
  simp [Session.approach, hn, hl, Session.onResolved, hj, Session.connect, Session.note]

/-- A login at a host in two pairs of brackets. -/
def nestedText : String :=
  "\x7b\"type\":\"auth\",\"payload\":\x7b\"username\":\"user\",\"host\":\"[[::1]]\"," ++
    "\"password\":\"pw\"\x7d\x7d"

def nestedLogin : AuthRequest :=
  ⟨⟨"[::1]", 22, "user", some "pw", none, none⟩, none, none⟩

theorem ofText_nestedText : ClientMessage.ofText nestedText = .ok (.auth nestedLogin) := by
  decide +kernel

theorem dialled_of_literal_nested :
    let nets := [Net.Subnet.v6 1#128 128]
    let c := nestedLogin.credentials
    Brought c ∧ nets ≠ [] ∧ Net.literal? c.host = some (.v6 1#128) ∧
      Net.checkTarget Net.noNames nets c.host = .ok () ∧
      (∃ net ∈ nets, net.contains (.v6 1#128) = true) := by
  intro nets c
  have hc : Brought c := .message ofText_nestedText
  have hn : nets ≠ [] := by simp [nets]
  have hl : Net.literal? c.host = some (.v6 1#128) := by decide +kernel
  have hk : Net.checkTarget Net.noNames nets c.host = .ok () := by decide +kernel
  exact ⟨hc, hn, hl, hk, (dialled_of_literal (ρ := Script) hc hn hl hk).1⟩

/-- The check finds `::1` in a host that is no address. -/
theorem vetted_nested_not_address :
    Brought nestedLogin.credentials ∧
      Net.checkTarget Net.noNames [.v6 1#128 128] nestedLogin.credentials.host = .ok () ∧
      Net.literal? nestedLogin.credentials.host = some (.v6 1#128) ∧
      Net.Address.ofText? nestedLogin.credentials.host.toList = none :=
  ⟨.message ofText_nestedText, by decide +kernel, by decide +kernel, by decide +kernel⟩

end TerminalGateway

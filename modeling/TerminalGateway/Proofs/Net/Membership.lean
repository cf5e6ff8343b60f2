import TerminalGateway.Proofs.Config
import TerminalGateway.Proofs.Net.Printed

/-!
Which addresses a list of networks admits. An entry admits the addresses of its family with the same
first bits, which are those between the two ends of its network. A host that is an address is
admitted exactly if some entry of the list admits it.
-/

namespace TerminalGateway.Net

/-! ### First bits -/

section FirstBits

variable {w n : Nat} {x y : BitVec w}

/-- The first bits of two words are the same. -/
def SameFirst (n : Nat) (x y : BitVec w) : Prop := ∀ i < n, x.getMsbD i = y.getMsbD i

theorem sameFirst_iff_shift (h : n ≤ w) :
    SameFirst n x y ↔ x >>> (w - n) = y >>> (w - n) := by
  constructor
  · intro hbits
    refine BitVec.eq_of_getMsbD_eq fun i hi => ?_
    simp only [BitVec.getMsbD_ushiftRight]
    by_cases hlow : i < w - n
    · simp [hlow]
    · rw [hbits (i - (w - n)) (by omega)]
  · intro heq i hi
    have hbit := congrArg (·.getMsbD (i + (w - n))) heq
    have hlow : ¬ i + (w - n) < w - n := by omega
    simpa [BitVec.getMsbD_ushiftRight, hlow, show i + (w - n) < w by omega] using hbit

theorem sameFirst_iff_between (h : n ≤ w) :
    SameFirst n x y ↔ x.toNat / 2 ^ (w - n) * 2 ^ (w - n) ≤ y.toNat ∧
      y.toNat < x.toNat / 2 ^ (w - n) * 2 ^ (w - n) + 2 ^ (w - n) := by
  rw [sameFirst_iff_shift h, ← BitVec.toNat_inj, BitVec.toNat_ushiftRight,
    BitVec.toNat_ushiftRight, Nat.shiftRight_eq_div_pow, Nat.shiftRight_eq_div_pow, eq_comm,
    Nat.div_eq_iff (Nat.two_pow_pos _)]
  have hpos : 0 < 2 ^ (w - n) := Nat.two_pow_pos _
  omega

theorem sameFirst_all_iff : SameFirst w x y ↔ y = x := by
  rw [sameFirst_iff_shift (Nat.le_refl w), Nat.sub_self, BitVec.ushiftRight_zero,
    BitVec.ushiftRight_zero, eq_comm]

end FirstBits

/-- Addresses of one family with the same first bits. -/
def Agree (n : Nat) : Address → Address → Prop
  | .v4 x, .v4 y => SameFirst n x y
  | .v6 x, .v6 y => SameFirst n x y
  | _, _ => False

/-- The number that the bits of an address are. -/
def Address.value : Address → Nat
  | .v4 bits => bits.toNat
  | .v6 bits => bits.toNat

/-- How many addresses share their first bits with a given one. -/
def Address.span (base : Address) (n : Nat) : Nat := 2 ^ (base.bitCount - n)

/-- The least of them. -/
def Address.least (base : Address) (n : Nat) : Nat := base.value / base.span n * base.span n

variable {n : Nat} {base a : Address}

theorem contains_around (h : n ≤ base.bitCount) :
    (Subnet.around base n).contains a = true ↔ Agree n base a := by
  cases base with
  | v4 x =>
      cases a with
      | v4 y => exact (beq_iff_eq.trans eq_comm).trans (sameFirst_iff_shift h).symm
      | v6 y => simp [Subnet.around, Subnet.contains, Agree]
  | v6 x =>
      cases a with
      | v4 y => simp [Subnet.around, Subnet.contains, Agree]
      | v6 y => exact (beq_iff_eq.trans eq_comm).trans (sameFirst_iff_shift h).symm

theorem agree_iff_between (h : n ≤ base.bitCount) :
    Agree n base a ↔ a.bitCount = base.bitCount ∧ base.least n ≤ a.value ∧
      a.value < base.least n + base.span n := by
  cases base with
  | v4 x =>
      cases a with
      | v4 y => exact (sameFirst_iff_between h).trans (iff_and_self.mpr fun _ => rfl)
      | v6 y => simp [Agree, Address.bitCount]
  | v6 x =>
      cases a with
      | v4 y => simp [Agree, Address.bitCount]
      | v6 y => exact (sameFirst_iff_between h).trans (iff_and_self.mpr fun _ => rfl)

theorem agree_bitCount_iff : Agree base.bitCount base a ↔ a = base := by
  cases base <;> cases a <;> simp [Agree, Address.bitCount, sameFirst_all_iff]

theorem agree_zero_iff : Agree 0 base a ↔ a.bitCount = base.bitCount := by
  cases base <;> cases a <;> simp [Agree, Address.bitCount, SameFirst]

/-! ### Entries -/

/-- Some reading of an entry agrees with an address on all the bits that count. -/
def Admits (entry : List Char) (a : Address) : Prop :=
  ∃ base n, EntryText base n entry ∧ Agree n base a

theorem EntryText.le {entry : List Char} (h : EntryText base n entry) : n ≤ base.bitCount := by
  cases h with
  | network _ hn => exact Nat.le_of_lt_succ hn.below
  | address _ => exact Nat.le_refl _

theorem around_injective {b : Address} {m : Nat} (h : Subnet.around a m = Subnet.around b n) :
    a = b ∧ m = n := by
  cases a <;> cases b <;> simp_all [Subnet.around]

/-- An entry has one reading. -/
theorem EntryText.unique {entry : List Char} {b : Address} {m : Nat}
    (h : EntryText a m entry) (h' : EntryText b n entry) : a = b ∧ m = n := by
  have hread := Subnet.ofText?_eq_some_iff.mpr ⟨a, m, h, rfl⟩
  have hread' := Subnet.ofText?_eq_some_iff.mpr ⟨b, n, h', rfl⟩
  exact around_injective (Option.some.inj (hread.symm.trans hread'))

theorem EntryText.admits_iff {entry : List Char} (h : EntryText base n entry) :
    Admits entry a ↔ Agree n base a := by
  constructor
  · rintro ⟨b, m, h', hagree⟩
    obtain ⟨rfl, rfl⟩ := h.unique h'
    exact hagree
  · exact fun hagree => ⟨base, n, h, hagree⟩

/-- The address of 128 bits that stands for one of 32. -/
def Address.mapped (bits : BitVec 32) : Address := .v6 (0xffff#96 ++ bits)

/-- What the forms of entries admit. -/
structure AdmitsByForm (entry : List Char) : Prop where
  readable : ∃ base n, EntryText base n entry
  whole : ∀ {base n}, EntryText base n entry → ∀ a, Admits entry a ↔
    a.bitCount = base.bitCount ∧ base.least n ≤ a.value ∧ a.value < base.least n + base.span n
  bare : ∀ {base}, AddressText .plain base entry → ∀ a, Admits entry a ↔ a = base
  any : ∀ {base}, EntryText base 0 entry → ∀ a, Admits entry a ↔ a.bitCount = base.bitCount
  unmapped : ∀ {bits n}, EntryText (.v4 bits) n entry → ∀ q, ¬ Admits entry (.mapped q)

theorem EntryText.admitsByForm {entry : List Char} (h : EntryText base n entry) :
    AdmitsByForm entry where
  readable := ⟨base, n, h⟩
  whole h _ := h.admits_iff.trans (agree_iff_between h.le)
  bare h _ := (EntryText.address h).admits_iff.trans agree_bitCount_iff
  any h _ := h.admits_iff.trans agree_zero_iff
  unmapped h _ hm := h.admits_iff.mp hm

/-! ### Lists -/

theorem exists_contains_iff {es : List (List Char)} {nets : List Subnet}
    (h : List.Forall₂ (fun entry net => Subnet.ofText? entry = some net) es nets) :
    (∃ net ∈ nets, net.contains a = true) ↔ ∃ entry ∈ es, Admits entry a := by
  induction h with
  | nil => simp
  | @cons entry net es nets hentry _ ih =>
      obtain ⟨base, n, htext, rfl⟩ := Subnet.ofText?_eq_some_iff.mp hentry
      simp only [List.exists_mem_cons_iff, ih, contains_around htext.le, htext.admits_iff]

theorem exists_entryText {es : List (List Char)} {nets : List Subnet}
    (h : List.Forall₂ (fun entry net => Subnet.ofText? entry = some net) es nets) :
    ∀ entry ∈ es, ∃ base n, EntryText base n entry := by
  induction h with
  | nil => simp
  | cons hentry _ ih =>
      obtain ⟨base, n, htext, -⟩ := Subnet.ofText?_eq_some_iff.mp hentry
      exact List.forall_mem_cons.mpr ⟨⟨base, n, htext⟩, ih⟩

theorem literal?_of_addressText {host : String} {t : List Char} (ht : AddressText .plain a t)
    (hhost : host.toList = t ∨ host.toList = '[' :: (t ++ [']'])) : literal? host = some a := by
  have hread := Address.ofText?_eq_some_iff.mpr ht
  rcases hhost with hhost | hhost
  · exact literal?_eq_some_iff.mpr ⟨0, 0, t, by simp [bracketed, hhost], hread⟩
  · exact literal?_eq_some_iff.mpr ⟨1, 1, t, by simp [bracketed, hhost], hread⟩

theorem judge_one_eq_error {nets : List Subnet} {host : String} {r : TargetRefusal}
    (h : judge nets host (.ok [a]) = .error r) : r = .outside host a := by
  cases hc : nets.any fun net => net.contains a with
  | true => simp_all [judge]
  | false => simp_all [judge]

/-- A network of 32 bits, written with bits behind its prefix, and an address of 128 bits. -/
def mixedList : String := " 10.1.2.3/8 ,, ::1"

end TerminalGateway.Net

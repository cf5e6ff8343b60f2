import Mathlib.Algebra.Group.Nat.Defs
import Mathlib.Data.List.Basic
import TerminalGateway.Text.Utf8

/-!
Octets are text exactly if some text is written with them. A character is written as a first octet
and its lower bits, six to an octet; reading takes the bits back in the same order, and the bounds
on the second octet leave just the characters.
-/

namespace TerminalGateway.Text.Utf8

/-- The last `owed` groups of six bits of a number, as octets. -/
def continuation : Nat → Nat → Octets
  | 0, _ => []
  | owed + 1, v => UInt8.ofNat (v / 64 ^ owed % 64 + 128) :: continuation owed v

theorem toNat_group (n : Nat) : (UInt8.ofNat (n % 64 + 128)).toNat = n % 64 + 128 := by
  rw [UInt8.toNat_ofNat']
  omega

theorem utf8EncodeChar_eq (c : Char) : String.utf8EncodeChar c =
    if c.toNat ≤ 0x7f then [UInt8.ofNat c.toNat]
    else if c.toNat ≤ 0x7ff then UInt8.ofNat (c.toNat / 64 % 32 + 192) :: continuation 1 c.toNat
    else if c.toNat ≤ 0xffff then UInt8.ofNat (c.toNat / 4096 % 16 + 224) :: continuation 2 c.toNat
    else UInt8.ofNat (c.toNat / 262144 % 8 + 240) :: continuation 3 c.toNat := by
  simp only [String.utf8EncodeChar, Char.toNat_val, continuation, Nat.reducePow, Nat.pow_zero,
    Nat.div_one]

/-! ### After a first octet -/

/-- The bounds on the next octet, as numbers. -/
def Partial.admits (p : Partial) (n : Nat) : Prop := p.low.toNat ≤ n ∧ n ≤ p.high.toNat

variable {p : Partial} {b : UInt8} {r : Octets}

theorem scan_nil (p : Partial) : scan (some p) [] = [none] := rfl

theorem scan_excluded (h : ¬ p.admits b.toNat) : none ∈ scan (some p) (b :: r) := by
  have hout : (p.low ≤ b && b ≤ p.high) = false := by
    simpa [Partial.admits, UInt8.le_iff_toNat_le] using h
  simp [scan, step, hout]

theorem scan_last (h : p.admits b.toNat) (ho : p.owed = 1) :
    scan (some p) (b :: r) = some (Char.ofNat (p.bits * 64 + b.toNat % 64)) :: scan none r := by
  have hin : (p.low ≤ b && b ≤ p.high) = true := by
    simpa [Partial.admits, UInt8.le_iff_toNat_le] using h
  simp [scan, step, hin, Partial.push, ho]

theorem scan_more (h : p.admits b.toNat) (ho : 1 < p.owed) :
    scan (some p) (b :: r) =
      scan (some ⟨p.bits * 64 + b.toNat % 64, p.owed - 1, 0x80, 0xbf⟩) r := by
  have hin : (p.low ≤ b && b ≤ p.high) = true := by
    simpa [Partial.admits, UInt8.le_iff_toNat_le] using h
  simp [scan, step, hin, Partial.push, Nat.not_le.mpr ho]

/-- The bits that are owed complete a character. -/
theorem scan_continuation {v owed : Nat} {low high : UInt8}
    (h : (⟨v / 64 ^ (owed + 1), owed + 1, low, high⟩ : Partial).admits (v / 64 ^ owed % 64 + 128))
    (r : Octets) :
    scan (some ⟨v / 64 ^ (owed + 1), owed + 1, low, high⟩) (continuation (owed + 1) v ++ r) =
      some (Char.ofNat v) :: scan none r := by
  induction owed generalizing low high with
  | zero =>
      have hb := toNat_group (v / 64 ^ 0)
      rw [continuation, List.cons_append, scan_last (by rw [hb]; exact h) rfl, hb]
      simp only [continuation, List.nil_append, Nat.pow_zero, Nat.div_one]
      congr 3
      omega
  | succ owed ih =>
      have hb := toNat_group (v / 64 ^ (owed + 1))
      rw [continuation, List.cons_append, scan_more (by rw [hb]; exact h) (by simp), hb]
      have hbits : v / 64 ^ (owed + 1 + 1) * 64 + (v / 64 ^ (owed + 1) % 64 + 128) % 64 =
          v / 64 ^ (owed + 1) := by
        rw [Nat.pow_succ 64 (owed + 1), ← Nat.div_div_eq_div_mul]
        omega
      simp only [hbits, Nat.add_sub_cancel]
      refine ih ⟨?_, ?_⟩
      · show 128 ≤ _
        omega
      · show _ ≤ 191
        omega

theorem admitted_of_scan (h : none ∉ scan (some p) r) :
    ∃ b rest, r = b :: rest ∧ p.admits b.toNat := by
  cases r with
  | nil => simp [scan_nil] at h
  | cons b rest =>
      refine ⟨b, rest, rfl, ?_⟩
      by_contra hout
      exact h (scan_excluded hout)

/-- Octets that complete a character are the bits that were owed. -/
theorem continuation_of_scan {bits owed : Nat} {low high : UInt8} (hl : 128 ≤ low.toNat)
    (hh : high.toNat ≤ 191) (h : none ∉ scan (some ⟨bits, owed + 1, low, high⟩) r) :
    ∃ v rest, r = continuation (owed + 1) v ++ rest ∧ v / 64 ^ (owed + 1) = bits ∧
      (⟨bits, owed + 1, low, high⟩ : Partial).admits (v / 64 ^ owed % 64 + 128) := by
  induction owed generalizing bits low high r with
  | zero =>
      obtain ⟨b, rest, rfl, hin⟩ := admitted_of_scan h
      have hb : low.toNat ≤ b.toNat ∧ b.toNat ≤ high.toNat := hin
      have hgroup : (bits * 64 + b.toNat % 64) % 64 + 128 = b.toNat := by omega
      refine ⟨bits * 64 + b.toNat % 64, rest, ?_, by omega, ?_⟩
      · rw [continuation, Nat.pow_zero, Nat.div_one, hgroup, UInt8.ofNat_toNat]
        rfl
      · rw [Nat.pow_zero, Nat.div_one, hgroup]
        exact hin
  | succ owed ih =>
      obtain ⟨b, rest, rfl, hin⟩ := admitted_of_scan h
      have hb : low.toNat ≤ b.toNat ∧ b.toNat ≤ high.toNat := hin
      rw [scan_more hin (by simp)] at h
      obtain ⟨v, rest, rfl, hv, -⟩ := ih (by decide) (by decide) h
      dsimp only at hv
      have hgroup : v / 64 ^ (owed + 1) % 64 + 128 = b.toNat := by omega
      refine ⟨v, rest, ?_, ?_, ?_⟩
      · show b :: continuation (owed + 1) v ++ rest =
          UInt8.ofNat (v / 64 ^ (owed + 1) % 64 + 128) :: continuation (owed + 1) v ++ rest
        rw [hgroup, UInt8.ofNat_toNat]
      · rw [Nat.pow_succ, ← Nat.div_div_eq_div_mul, hv]
        omega
      · rw [hgroup]
        exact hin

/-! ### First octets -/

/-- A first octet that begins a longer character, with the part of it that it is. -/
inductive Leads : Nat → Partial → Prop
  | two {n : Nat} (h : 194 ≤ n) (h' : n < 224) : Leads n ⟨n % 32, 1, 0x80, 0xbf⟩
  | leastOfThree : Leads 224 ⟨0, 2, 0xa0, 0xbf⟩
  | belowSurrogates : Leads 237 ⟨13, 2, 0x80, 0x9f⟩
  | three {n : Nat} (h : 225 ≤ n) (h' : n < 240) (hs : n ≠ 237) :
      Leads n ⟨n % 16, 2, 0x80, 0xbf⟩
  | leastOfFour : Leads 240 ⟨0, 3, 0x90, 0xbf⟩
  | four {n : Nat} (h : 241 ≤ n) (h' : n < 244) : Leads n ⟨n % 8, 3, 0x80, 0xbf⟩
  | last : Leads 244 ⟨4, 3, 0x80, 0x8f⟩

theorem first_eq (b : UInt8) : first b =
    if b.toNat < 128 then some (.inl (Char.ofNat b.toNat))
    else if b.toNat < 194 then none
    else if b.toNat < 224 then some (.inr ⟨b.toNat % 32, 1, 0x80, 0xbf⟩)
    else if b.toNat = 224 then some (.inr ⟨0, 2, 0xa0, 0xbf⟩)
    else if b.toNat = 237 then some (.inr ⟨13, 2, 0x80, 0x9f⟩)
    else if b.toNat < 240 then some (.inr ⟨b.toNat % 16, 2, 0x80, 0xbf⟩)
    else if b.toNat = 240 then some (.inr ⟨0, 3, 0x90, 0xbf⟩)
    else if b.toNat < 244 then some (.inr ⟨b.toNat % 8, 3, 0x80, 0xbf⟩)
    else if b.toNat = 244 then some (.inr ⟨4, 3, 0x80, 0x8f⟩)
    else none := by
  simp only [first, UInt8.lt_iff_toNat_lt, ← UInt8.toNat_inj]
  rfl

/-- An octet between characters is a character, begins a longer one, or is neither. -/
theorem first_cases (b : UInt8) :
    (b.toNat < 128 ∧ first b = some (.inl (Char.ofNat b.toNat))) ∨ first b = none ∨
      ∃ p, first b = some (.inr p) ∧ Leads b.toNat p := by
  rw [first_eq]
  generalize b.toNat = n
  by_cases h₁ : n < 128
  · exact .inl ⟨h₁, if_pos h₁⟩
  rw [if_neg h₁]
  refine .inr ?_
  by_cases h₂ : n < 194
  · exact .inl (if_pos h₂)
  rw [if_neg h₂]
  by_cases h₃ : n < 224
  · exact .inr ⟨_, if_pos h₃, .two (by omega) h₃⟩
  rw [if_neg h₃]
  by_cases h₄ : n = 224
  · exact .inr ⟨_, if_pos h₄, h₄ ▸ .leastOfThree⟩
  rw [if_neg h₄]
  by_cases h₅ : n = 237
  · exact .inr ⟨_, if_pos h₅, h₅ ▸ .belowSurrogates⟩
  rw [if_neg h₅]
  by_cases h₆ : n < 240
  · exact .inr ⟨_, if_pos h₆, .three (by omega) h₆ h₅⟩
  rw [if_neg h₆]
  by_cases h₇ : n = 240
  · exact .inr ⟨_, if_pos h₇, h₇ ▸ .leastOfFour⟩
  rw [if_neg h₇]
  by_cases h₈ : n < 244
  · exact .inr ⟨_, if_pos h₈, .four (by omega) h₈⟩
  rw [if_neg h₈]
  by_cases h₉ : n = 244
  · exact .inr ⟨_, if_pos h₉, h₉ ▸ .last⟩
  · exact .inl (if_neg h₉)

theorem first_eq_lead : first b = some (.inr p) ↔ Leads b.toNat p := by
  constructor
  · intro h
    obtain ⟨-, h'⟩ | h' | ⟨q, h', hq⟩ := first_cases b <;> rw [h] at h' <;> cases h'
    exact hq
  · intro h
    rw [first_eq]
    generalize b.toNat = n at h
    cases h with
    | two h h' => rw [if_neg (by omega), if_neg (by omega), if_pos h']
    | leastOfThree | belowSurrogates | leastOfFour | last => rfl
    | three h h' hs =>
        rw [if_neg (by omega), if_neg (by omega), if_neg (by omega), if_neg (by omega), if_neg hs,
          if_pos h']
    | four h h' =>
        rw [if_neg (by omega), if_neg (by omega), if_neg (by omega), if_neg (by omega),
          if_neg (by omega), if_neg (by omega), if_neg (by omega), if_pos h']

theorem first_eq_char {c : Char} (h : first b = some (.inl c)) :
    b.toNat < 128 ∧ c = Char.ofNat b.toNat := by
  obtain ⟨hb, h'⟩ | h' | ⟨q, h', -⟩ := first_cases b <;> rw [h] at h' <;> cases h'
  exact ⟨hb, rfl⟩

/-! ### Characters -/

/-- A number is read from first octet `n` and the bits that are then owed. -/
structure Spelled (n : Nat) (p : Partial) (owed v : Nat) : Prop where
  leads : Leads n p
  length : p.owed = owed + 1
  upper : v / 64 ^ (owed + 1) = p.bits
  second : p.admits (v / 64 ^ owed % 64 + 128)

/-- A character beyond the first ones, by its first octet `n` and the octets that follow. -/
inductive Spans (n v : Nat) : Nat → Prop
  | two (h : 0x80 ≤ v) (h' : v < 0x800) (hn : n = v / 64 + 192) : Spans n v 0
  | three (h : 0x800 ≤ v) (h' : v < 0x10000) (hs : v < 0xd800 ∨ 0xdfff < v)
      (hn : n = v / 4096 + 224) : Spans n v 1
  | four (h : 0x10000 ≤ v) (h' : v < 0x110000) (hn : n = v / 262144 + 240) : Spans n v 2

variable {n owed v : Nat}

/-- The bounds on a second octet leave out longer forms, surrogates and what is no character. -/
theorem Spelled.spans (h : Spelled n p owed v) : Spans n v owed := by
  obtain ⟨hl, ho, hu, hs, hs'⟩ := h
  have hone : p.owed = 2 → owed = 1 := by omega
  have htwo : p.owed = 3 → owed = 2 := by omega
  cases hl with
  | two h h' =>
      obtain rfl : owed = 0 := by simpa using ho.symm
      have hu : v / 64 = n % 32 := hu
      exact .two (by omega) (by omega) (by omega)
  | leastOfThree =>
      obtain rfl := hone rfl
      have hu : v / 4096 = 0 := hu
      have hs : 160 ≤ v / 64 % 64 + 128 := hs
      exact .three (by omega) (by omega) (by omega) (by omega)
  | belowSurrogates =>
      obtain rfl := hone rfl
      have hu : v / 4096 = 13 := hu
      have hs' : v / 64 % 64 + 128 ≤ 159 := hs'
      exact .three (by omega) (by omega) (by omega) (by omega)
  | three h h' hne =>
      obtain rfl := hone rfl
      have hu : v / 4096 = n % 16 := hu
      exact .three (by omega) (by omega) (by omega) (by omega)
  | leastOfFour =>
      obtain rfl := htwo rfl
      have hu : v / 262144 = 0 := hu
      have hs : 144 ≤ v / 4096 % 64 + 128 := hs
      exact .four (by omega) (by omega) (by omega)
  | four h h' =>
      obtain rfl := htwo rfl
      have hu : v / 262144 = n % 8 := hu
      exact .four (by omega) (by omega) (by omega)
  | last =>
      obtain rfl := htwo rfl
      have hu : v / 262144 = 4 := hu
      have hs' : v / 4096 % 64 + 128 ≤ 143 := hs'
      exact .four (by omega) (by omega) (by omega)

theorem Spans.spelled (h : Spans n v owed) : ∃ p, Spelled n p owed v := by
  have hbounds : ∀ k, 128 ≤ k % 64 + 128 ∧ k % 64 + 128 ≤ 191 := by omega
  cases h with
  | two h h' hn =>
      refine ⟨_, .two (by omega) (by omega), rfl, ?_, hbounds _⟩
      show v / 64 = n % 32
      omega
  | three h h' hs hn =>
      by_cases hleast : n = 224
      · subst hleast
        refine ⟨_, .leastOfThree, rfl, ?_, ?_, (hbounds _).2⟩
        · show v / 4096 = 0
          omega
        · show 160 ≤ v / 64 % 64 + 128
          omega
      by_cases hsurrogates : n = 237
      · subst hsurrogates
        refine ⟨_, .belowSurrogates, rfl, ?_, (hbounds _).1, ?_⟩
        · show v / 4096 = 13
          omega
        · show v / 64 % 64 + 128 ≤ 159
          omega
      · refine ⟨_, .three (by omega) (by omega) hsurrogates, rfl, ?_, hbounds _⟩
        show v / 4096 = n % 16
        omega
  | four h h' hn =>
      by_cases hleast : n = 240
      · subst hleast
        refine ⟨_, .leastOfFour, rfl, ?_, ?_, (hbounds _).2⟩
        · show v / 262144 = 0
          omega
        · show 144 ≤ v / 4096 % 64 + 128
          omega
      by_cases hlast : n = 244
      · subst hlast
        refine ⟨_, .last, rfl, ?_, (hbounds _).1, ?_⟩
        · show v / 262144 = 4
          omega
        · show v / 4096 % 64 + 128 ≤ 143
          omega
      · refine ⟨_, .four (by omega) (by omega), rfl, ?_, hbounds _⟩
        show v / 262144 = n % 8
        omega

theorem Spans.toNat (h : Spans n v owed) : (Char.ofNat v).toNat = v := by
  have hv : v.isValidChar := by
    cases h with
    | two h h' _ => exact .inl (by omega)
    | three h h' hs _ => exact hs.imp id fun hs => ⟨hs, by omega⟩
    | four h h' _ => exact .inr ⟨by omega, h'⟩
  rw [Char.ofNat, dif_pos hv]
  rfl

theorem Spans.encode {c : Char} (h : Spans n c.toNat owed) :
    String.utf8EncodeChar c = UInt8.ofNat n :: continuation (owed + 1) c.toNat := by
  rw [utf8EncodeChar_eq]
  cases h with
  | two h h' hn =>
      have hlead : c.toNat / 64 % 32 + 192 = n := by omega
      rw [if_neg (by omega), if_pos (by omega), hlead]
  | three h h' _ hn =>
      have hlead : c.toNat / 4096 % 16 + 224 = n := by omega
      rw [if_neg (by omega), if_neg (by omega), if_pos (by omega), hlead]
  | four h h' hn =>
      have hlead : c.toNat / 262144 % 8 + 240 = n := by omega
      rw [if_neg (by omega), if_neg (by omega), if_neg (by omega), hlead]

theorem exists_spans {c : Char} (h : 0x80 ≤ c.toNat) : ∃ n owed, Spans n c.toNat owed := by
  have hvalid : c.toNat < 0xd800 ∨ 0xdfff < c.toNat ∧ c.toNat < 0x110000 := c.valid
  by_cases h₁ : c.toNat < 0x800
  · exact ⟨_, 0, .two h h₁ rfl⟩
  by_cases h₂ : c.toNat < 0x10000
  · exact ⟨_, 1, .three (by omega) h₂ (by omega) rfl⟩
  · exact ⟨_, 2, .four (by omega) (by omega) rfl⟩

/-! ### Reading what was written -/

theorem scan_lead (h : first b = some (.inr p)) : scan none (b :: r) = scan (some p) r := by
  simp [scan, step, begin, h]

/-- A character that is written is read, whatever follows it. -/
theorem scan_encodeChar (c : Char) (r : Octets) :
    scan none (String.utf8EncodeChar c ++ r) = some c :: scan none r := by
  by_cases hc : 0x80 ≤ c.toNat
  · obtain ⟨n, owed, h⟩ := exists_spans hc
    obtain ⟨⟨bits, owed', low, high⟩, hp⟩ := h.spelled
    have hn : (UInt8.ofNat n).toNat = n := by
      rw [UInt8.toNat_ofNat']
      cases h <;> omega
    have hlead : first (UInt8.ofNat n) = some (.inr ⟨bits, owed', low, high⟩) :=
      first_eq_lead.mpr (hn.symm ▸ hp.leads)
    obtain rfl : owed' = owed + 1 := hp.length
    obtain rfl : c.toNat / 64 ^ (owed + 1) = bits := hp.upper
    rw [h.encode, List.cons_append, scan_lead hlead, scan_continuation hp.second, Char.ofNat_toNat]
  · have hn : (UInt8.ofNat c.toNat).toNat = c.toNat := by
      rw [UInt8.toNat_ofNat']
      omega
    have hfirst : first (UInt8.ofNat c.toNat) = some (.inl c) := by
      rw [first_eq, hn, if_pos (by omega), Char.ofNat_toNat]
    rw [utf8EncodeChar_eq, if_pos (by omega)]
    simp [scan, step, begin, hfirst]

theorem scan_encode (cs : List Char) : scan none (encode cs) = cs.map some := by
  induction cs with
  | nil => rfl
  | cons c cs ih =>
      have hcons : encode (c :: cs) = String.utf8EncodeChar c ++ encode cs := List.flatMap_cons
      rw [hcons, scan_encodeChar, ih, List.map_cons]

theorem decodeLossy_encode (cs : List Char) : decodeLossy (encode cs) = cs := by
  simp [decodeLossy, scan_encode, Function.comp_def]

theorem Leads.bounds (h : Leads n p) :
    (∃ owed, p.owed = owed + 1) ∧ 128 ≤ p.low.toNat ∧ p.high.toNat ≤ 191 := by
  have hbounds : 128 ≤ (0x80 : UInt8).toNat ∧ (0xbf : UInt8).toNat ≤ 191 := by decide
  cases h with
  | two _ _ | three _ _ _ | four _ _ => exact ⟨⟨_, rfl⟩, hbounds⟩
  | leastOfThree | belowSurrogates | leastOfFour | last =>
      exact ⟨⟨_, rfl⟩, by decide, by decide⟩

/-- Octets of which none is marked begin with a character, if there are any. -/
theorem exists_encodeChar (h : none ∉ scan none (b :: r)) :
    ∃ c rest, b :: r = String.utf8EncodeChar c ++ rest := by
  cases hf : first b with
  | none => simp [scan, step, begin, hf] at h
  | some s =>
      cases s with
      | inl c =>
          obtain ⟨hb, rfl⟩ := first_eq_char hf
          have hc : (Char.ofNat b.toNat).toNat = b.toNat := by
            rw [Char.ofNat, dif_pos (.inl (by omega))]
            rfl
          refine ⟨Char.ofNat b.toNat, r, ?_⟩
          rw [utf8EncodeChar_eq, if_pos (by omega), hc, UInt8.ofNat_toNat]
          rfl
      | inr p =>
          obtain ⟨bits, owed, low, high⟩ := p
          have hl := first_eq_lead.mp hf
          obtain ⟨⟨owed, rfl⟩, hlow, hhigh⟩ := hl.bounds
          rw [scan_lead hf] at h
          obtain ⟨v, rest, rfl, hu, hs⟩ := continuation_of_scan hlow hhigh h
          have hspans : Spans b.toNat v owed := Spelled.spans ⟨hl, rfl, hu, hs⟩
          refine ⟨Char.ofNat v, rest, ?_⟩
          have henc := Spans.encode (c := Char.ofNat v) (hspans.toNat.symm ▸ hspans)
          rw [henc, hspans.toNat, UInt8.ofNat_toNat]
          rfl

theorem encode_of_scan {cs : List Char} (h : scan none r = cs.map some) : r = encode cs := by
  have hnone : none ∉ scan none r := by simp [h]
  induction cs generalizing r with
  | nil =>
      cases r with
      | nil => rfl
      | cons b r =>
          obtain ⟨c, rest, heq⟩ := exists_encodeChar hnone
          rw [heq, scan_encodeChar] at h
          cases h
  | cons c cs ih =>
      cases r with
      | nil => cases h
      | cons b r =>
          obtain ⟨c', rest, heq⟩ := exists_encodeChar hnone
          rw [heq, scan_encodeChar, List.map_cons] at h
          obtain ⟨hc, hrest⟩ := List.cons.inj h
          obtain rfl := Option.some.inj hc
          rw [heq, ih hrest (by simp [hrest])]
          exact List.flatMap_cons.symm

theorem mapM_id_eq_some {α : Type} {xs : List (Option α)} {ys : List α} :
    xs.mapM id = some ys ↔ xs = ys.map some := by
  induction xs generalizing ys with
  | nil => cases ys <;> simp
  | cons x xs ih =>
      cases x with
      | none => cases ys <;> simp [List.mapM_cons]
      | some x =>
          have hcons : (some x :: xs).mapM id = (xs.mapM id).map (x :: ·) := by
            rw [List.mapM_cons]
            cases xs.mapM id <;> rfl
          rw [hcons, Option.map_eq_some_iff]
          cases ys <;> simp [ih, and_comm]

/-- Octets are read as a text exactly if they are what it is written with. -/
theorem decode?_eq_some_iff {bytes : Octets} {cs : List Char} :
    decode? bytes = some cs ↔ bytes = encode cs := by
  rw [decode?, mapM_id_eq_some]
  refine ⟨encode_of_scan, ?_⟩
  rintro rfl
  exact scan_encode cs

end TerminalGateway.Text.Utf8

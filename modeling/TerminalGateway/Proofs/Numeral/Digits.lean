import Mathlib.Algebra.Group.Nat.Defs
import Mathlib.Data.List.Basic
import Mathlib.Data.Nat.Digits.Defs
import TerminalGateway.Numeral.Digits

/-!
The digits in which a number is written: they are digits of the base, there are no more of them
than the number needs, and only zero begins with a zero.
-/

namespace TerminalGateway.Numeral

variable {base steps n : Nat}

theorem isSome_digit?_of_mem_digitsWithin (h2 : 2 ≤ base) (h16 : base ≤ 16) (h : n ≤ steps) :
    ∀ c ∈ digitsWithin base steps n, (digit? base c).isSome = true := by
  have hdigit : ∀ d < base, (digit? base (digitOf d)).isSome = true := fun d hd => by
    simp [digit?_digitOf h16 hd]
  induction steps generalizing n with
  | zero => simpa [digitsWithin] using hdigit n (by omega)
  | succ steps ih =>
      simp only [digitsWithin]
      split
      · rename_i hn
        simpa using hdigit n hn
      · have hlt : n / base < n := Nat.div_lt_self (by omega) (by omega)
        intro c hc
        rcases List.mem_append.mp hc with hc | hc
        · exact ih (by omega) c hc
        · obtain rfl := List.mem_singleton.mp hc
          exact hdigit _ (Nat.mod_lt n (by omega))

theorem isSome_digit?_of_mem_digits (h2 : 2 ≤ base) (h16 : base ≤ 16) :
    ∀ c ∈ digits base n, (digit? base c).isSome = true :=
  isSome_digit?_of_mem_digitsWithin h2 h16 (Nat.le_refl n)

theorem length_digitsWithin_le {width : Nat} (h : n < base ^ (width + 1)) :
    (digitsWithin base steps n).length ≤ width + 1 := by
  induction steps generalizing n width with
  | zero => simp [digitsWithin]
  | succ steps ih =>
      simp only [digitsWithin]
      split
      · simp
      · rename_i hn
        cases width with
        | zero => exact absurd (by simpa using h) hn
        | succ width =>
            have hdiv : n / base < base ^ (width + 1) := by
              refine Nat.div_lt_of_lt_mul ?_
              rwa [Nat.pow_succ, Nat.mul_comm] at h
            simpa using ih hdiv

theorem length_digits_le {width : Nat} (h : n < base ^ (width + 1)) :
    (digits base n).length ≤ width + 1 :=
  length_digitsWithin_le h

theorem digitsWithin_eq_cons (h2 : 2 ≤ base) (h16 : base ≤ 16) (h : n ≤ steps) :
    ∃ c cs, digitsWithin base steps n = c :: cs ∧ (c = '0' → n = 0) := by
  have hzero : ∀ d < 16, digitOf d = '0' → d = 0 := by decide
  induction steps generalizing n with
  | zero => exact ⟨_, [], rfl, fun _ => Nat.le_zero.mp h⟩
  | succ steps ih =>
      simp only [digitsWithin]
      split
      · rename_i hn
        exact ⟨_, [], rfl, hzero n (by omega)⟩
      · rename_i hn
        have hlt : n / base < n := Nat.div_lt_self (by omega) (by omega)
        obtain ⟨c, cs, hcs, hc⟩ := ih (show n / base ≤ steps by omega)
        refine ⟨c, cs ++ [digitOf (n % base)], by rw [hcs]; rfl, fun heq => ?_⟩
        have hpos : 0 < n / base := Nat.div_pos (Nat.le_of_not_lt hn) (by omega)
        exact absurd (hc heq) (by omega)

/-- Only zero begins with a zero. -/
theorem digits_eq_cons (h2 : 2 ≤ base) (h16 : base ≤ 16) (n : Nat) :
    ∃ c cs, digits base n = c :: cs ∧ (c = '0' → n = 0) :=
  digitsWithin_eq_cons h2 h16 (Nat.le_refl n)

theorem isSome_digit?_ten_iff {c : Char} : (digit? 10 c).isSome = true ↔ isDigit c = true := by
  have hc : isDigit c = true ↔ 0x30 ≤ c.toNat ∧ c.toNat ≤ 0x39 := by
    rw [isDigit, Bool.and_eq_true, decide_eq_true_iff, decide_eq_true_iff]
    rfl
  rw [hc]
  simp only [digit?]
  grind

theorem isDigit_of_mem_digits (n : Nat) : ∀ c ∈ digits 10 n, isDigit c = true := fun c hc =>
  isSome_digit?_ten_iff.mp (isSome_digit?_of_mem_digits (by decide) (by decide) c hc)

theorem isDigit_digitChar {d : Nat} (hd : d < 10) : isDigit d.digitChar = true := by
  have key : ∀ d < 10, isDigit d.digitChar = true := by decide
  exact key d hd

theorem digit?_digitChar {d : Nat} (hd : d < 10) : digit? 10 d.digitChar = some d := by
  have key : ∀ d < 10, digit? 10 d.digitChar = some d := by decide
  exact key d hd

theorem exists_digitChar {c : Char} (h : isDigit c = true) : ∃ d < 10, d.digitChar = c := by
  have hc : 0x30 ≤ c.toNat ∧ c.toNat ≤ 0x39 := by
    rwa [isDigit, Bool.and_eq_true, decide_eq_true_iff, decide_eq_true_iff] at h
  have key : ∀ n ≤ 0x39, 0x30 ≤ n → ∃ d < 10, d.digitChar = Char.ofNat n := by decide
  obtain ⟨d, hd, heq⟩ := key c.toNat hc.2 hc.1
  exact ⟨d, hd, heq.trans (Char.ofNat_toNat c)⟩

theorem exists_map_digitChar {cs : List Char} (h : ∀ c ∈ cs, isDigit c = true) :
    ∃ ds : List Nat, (∀ d ∈ ds, d < 10) ∧ ds.map Nat.digitChar = cs := by
  induction cs with
  | nil => exact ⟨[], by simp⟩
  | cons c cs ih =>
      rw [List.forall_mem_cons] at h
      obtain ⟨d, hd, rfl⟩ := exists_digitChar h.1
      obtain ⟨ds, hds, rfl⟩ := ih h.2
      exact ⟨d :: ds, List.forall_mem_cons.mpr ⟨hd, hds⟩, rfl⟩

/-- Decimal digits of a number, with any zeros in front. -/
inductive DecimalText : Nat → List Char → Prop
  | mk {ds : List Nat} (hne : ds ≠ []) (hd : ∀ d ∈ ds, d < 10) :
      DecimalText (Nat.ofDigits 10 ds.reverse) (ds.map Nat.digitChar)

theorem value_map_digitChar {ds : List Nat} (hd : ∀ d ∈ ds, d < 10) :
    value 10 (ds.map Nat.digitChar) = Nat.ofDigits 10 ds.reverse := by
  rw [value, valueFrom, Nat.ofDigits_eq_foldr, List.foldr_reverse, List.foldl_map]
  refine List.foldl_ext _ _ 0 fun n d hm => ?_
  simp [digit?_digitChar (hd d hm), Nat.mul_comm, Nat.add_comm]

theorem decimalText_iff {cs : List Char} :
    DecimalText n cs ↔ cs ≠ [] ∧ (∀ c ∈ cs, isDigit c = true) ∧ value 10 cs = n := by
  constructor
  · rintro ⟨hne, hd⟩
    refine ⟨by simpa using hne, List.forall_mem_map.mpr fun d hm => ?_, value_map_digitChar hd⟩
    exact isDigit_digitChar (hd d hm)
  · rintro ⟨hne, hdigits, rfl⟩
    obtain ⟨ds, hd, rfl⟩ := exists_map_digitChar hdigits
    rw [value_map_digitChar hd]
    exact .mk (by simpa using hne) hd

/-- The texts of a number up to a limit: decimal digits, with or without a plus sign. -/
def Writes (limit n : Nat) (cs : List Char) : Prop :=
  ∃ ds, (cs = ds ∨ cs = '+' :: ds) ∧ DecimalText n ds ∧ n ≤ limit

theorem unsigned_eq_some_iff {limit : Nat} {ds : List Char} :
    (if ds.isEmpty || !ds.all isDigit then none
      else if value 10 ds ≤ limit then some (value 10 ds) else none) = some n ↔
    DecimalText n ds ∧ n ≤ limit := by
  rw [decimalText_iff]
  cases hb : ds.isEmpty || !ds.all isDigit with
  | true =>
      rw [if_pos rfl]
      refine iff_of_false (by simp) fun ⟨⟨hne, hdigits, _⟩, _⟩ => ?_
      have hno : (ds.isEmpty || !ds.all isDigit) = false := by simpa using ⟨hne, hdigits⟩
      rw [hno] at hb
      cases hb
  | false =>
      have hds : ds ≠ [] ∧ ∀ c ∈ ds, isDigit c = true := by simpa using hb
      rw [if_neg Bool.false_ne_true, Option.ite_none_right_eq_some, Option.some.injEq]
      constructor
      · rintro ⟨hle, rfl⟩
        exact ⟨⟨hds.1, hds.2, rfl⟩, hle⟩
      · rintro ⟨⟨-, -, rfl⟩, hle⟩
        exact ⟨hle, rfl⟩

theorem read?_eq_some_iff {limit : Nat} {cs : List Char} :
    read? limit cs = some n ↔ Writes limit n cs := by
  by_cases hplus : ∃ r, cs = '+' :: r
  · obtain ⟨r, rfl⟩ := hplus
    refine unsigned_eq_some_iff.trans ⟨fun h => ⟨r, .inr rfl, h⟩, ?_⟩
    rintro ⟨ds, rfl | heq, hds, hle⟩
    · exact absurd ((decimalText_iff.mp hds).2.1 '+' (by simp)) (by decide)
    · obtain rfl := (List.cons.inj heq).2
      exact ⟨hds, hle⟩
  · have hread : read? limit cs = if cs.isEmpty || !cs.all isDigit then none
        else if value 10 cs ≤ limit then some (value 10 cs) else none := by
      unfold read?
      split
      · exact absurd ⟨_, rfl⟩ hplus
      · rfl
    rw [hread, unsigned_eq_some_iff]
    refine ⟨fun h => ⟨cs, .inl rfl, h⟩, ?_⟩
    rintro ⟨ds, rfl | rfl, h⟩
    · exact h
    · exact absurd ⟨ds, rfl⟩ hplus

theorem le_of_read? {limit : Nat} {cs : List Char} (h : read? limit cs = some n) : n ≤ limit := by
  obtain ⟨_, -, -, hle⟩ := read?_eq_some_iff.mp h
  exact hle

end TerminalGateway.Numeral

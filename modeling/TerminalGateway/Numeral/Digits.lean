/-!
Natural numbers written in digits. Reading what `digits` writes gives the number back.
-/

namespace TerminalGateway.Numeral

def digitOf (d : Nat) : Char :=
  if d < 10 then Char.ofNat (0x30 + d) else Char.ofNat (0x57 + d)

/-- The value of a digit of either case, if it is one of the base. -/
def digit? (base : Nat) (c : Char) : Option Nat :=
  let n := c.toNat
  let d :=
    if 0x30 ≤ n ∧ n ≤ 0x39 then n - 0x30
    else if 0x61 ≤ n ∧ n ≤ 0x66 then n - 0x57
    else if 0x41 ≤ n ∧ n ≤ 0x46 then n - 0x37
    else base
  if d < base then some d else none

def isDigit (c : Char) : Bool := '0' ≤ c && c ≤ '9'

/-- The digits of `n`, given at least as many steps as it has digits. -/
def digitsWithin (base : Nat) : Nat → Nat → List Char
  | 0, n => [digitOf n]
  | steps + 1, n =>
      if n < base then [digitOf n]
      else digitsWithin base steps (n / base) ++ [digitOf (n % base)]

/-- A number in the digits of a base, without leading zeros. -/
def digits (base n : Nat) : List Char := digitsWithin base n n

def decimal (n : Nat) : String := String.ofList (digits 10 n)

def hexadecimal (n : Nat) : String := String.ofList (digits 16 n)

def signed : Int → String
  | .ofNat n => decimal n
  | .negSucc n => "-" ++ decimal (n + 1)

/-- The value of digits read from the left, after `start`. -/
def valueFrom (base : Nat) (start : Nat) (cs : List Char) : Nat :=
  cs.foldl (fun n c => n * base + (digit? base c).getD 0) start

def value (base : Nat) (cs : List Char) : Nat := valueFrom base 0 cs

/-- A natural number of at most `limit` in decimal digits, with or without a plus sign. -/
def read? (limit : Nat) (cs : List Char) : Option Nat :=
  let cs := match cs with
    | '+' :: r => r
    | _ => cs
  if cs.isEmpty || !cs.all isDigit then none
  else if value 10 cs ≤ limit then some (value 10 cs)
  else none

theorem digit?_digitOf {base d : Nat} (hb : base ≤ 16) (hd : d < base) :
    digit? base (digitOf d) = some d := by
  have key : ∀ b ≤ 16, ∀ d < b, digit? b (digitOf d) = some d := by decide
  exact key base hb d hd

theorem valueFrom_append (base start : Nat) (a b : List Char) :
    valueFrom base start (a ++ b) = valueFrom base (valueFrom base start a) b := by
  simp [valueFrom]

theorem value_digitsWithin {base : Nat} (h2 : 2 ≤ base) (h16 : base ≤ 16) (steps n : Nat)
    (h : n ≤ steps) : value base (digitsWithin base steps n) = n := by
  induction steps generalizing n with
  | zero =>
      obtain rfl : n = 0 := by omega
      simp [digitsWithin, value, valueFrom, digit?_digitOf h16 (show 0 < base by omega)]
  | succ steps ih =>
      simp only [digitsWithin]
      split
      · rename_i hn
        simp [value, valueFrom, digit?_digitOf h16 hn]
      · rename_i hn
        have hlt : n / base < n := Nat.div_lt_self (by omega) (by omega)
        have hmod : n % base < base := Nat.mod_lt _ (by omega)
        have := ih (n / base) (by omega)
        simp only [value] at this ⊢
        rw [valueFrom_append, this]
        simp only [valueFrom, List.foldl_cons, List.foldl_nil, digit?_digitOf h16 hmod,
          Option.getD_some]
        rw [Nat.mul_comm]
        exact Nat.div_add_mod n base

theorem value_digits {base : Nat} (h2 : 2 ≤ base) (h16 : base ≤ 16) (n : Nat) :
    value base (digits base n) = n :=
  value_digitsWithin h2 h16 n n (Nat.le_refl n)

theorem digits_injective {base : Nat} (h2 : 2 ≤ base) (h16 : base ≤ 16) {m n : Nat}
    (h : digits base m = digits base n) : m = n := by
  rw [← value_digits h2 h16 m, ← value_digits h2 h16 n, h]

end TerminalGateway.Numeral

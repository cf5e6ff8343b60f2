import TerminalGateway.Text.Utf8

/-!
Octets in base64: four characters for three octets, the last four filled up with `=`. Bits that
no octet uses have to be zero, so that every sequence of octets has one form only.
-/

namespace TerminalGateway.Text.Base64

def bits? (c : Char) : Option Nat :=
  let n := c.toNat
  if 'A' ≤ c ∧ c ≤ 'Z' then some (n - 0x41)
  else if 'a' ≤ c ∧ c ≤ 'z' then some (n - 0x61 + 26)
  else if '0' ≤ c ∧ c ≤ '9' then some (n - 0x30 + 52)
  else if c = '+' then some 62
  else if c = '/' then some 63
  else none

def three? (a b c d : Char) : Option Octets := do
  let n := ((← bits? a) * 64 + (← bits? b)) * 4096 + (← bits? c) * 64 + (← bits? d)
  return [UInt8.ofNat (n / 65536), UInt8.ofNat (n / 256 % 256), UInt8.ofNat (n % 256)]

/-- The octets of three characters before a `=`. -/
def two? (a b c : Char) : Option Octets := do
  let n := ((← bits? a) * 64 + (← bits? b)) * 64 + (← bits? c)
  if n % 4 ≠ 0 then none
  else return [UInt8.ofNat (n / 1024), UInt8.ofNat (n / 4 % 256)]

/-- The octet of two characters before `==`. -/
def one? (a b : Char) : Option Octets := do
  let n := (← bits? a) * 64 + (← bits? b)
  if n % 16 ≠ 0 then none else return [UInt8.ofNat (n / 16)]

def decode? : List Char → Option Octets
  | [] => some []
  | [a, b, '=', '='] => one? a b
  | [a, b, c, '='] => two? a b c
  | a :: b :: c :: d :: r => return (← three? a b c d) ++ (← decode? r)
  | _ => none

end TerminalGateway.Text.Base64

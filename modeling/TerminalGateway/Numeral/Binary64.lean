import TerminalGateway.Numeral.Digits

/-!
Finite numbers of the 64-bit binary format, in exact integer arithmetic: rounding a quotient to
the nearest of them, products and quotients, and the shortest decimal that rounds to one.
-/

namespace TerminalGateway.Numeral

/-- The number `mantissa * 2 ^ exponent` or its opposite. The mantissa has at most 53 bits, and
53 of them unless the exponent is the least one, -1074. -/
structure Binary64 where
  negative : Bool
  mantissa : Nat
  exponent : Int
  deriving DecidableEq, Repr

namespace Binary64

def zero (negative : Bool) : Binary64 := ⟨negative, 0, -1074⟩

/-- The whole number nearest to `num / den`; a half goes to the even neighbour. -/
def divNearest (num den : Nat) : Nat :=
  let q := num / den
  let r := num % den
  if 2 * r < den then q
  else if den < 2 * r then q + 1
  else if q % 2 = 0 then q else q + 1

def scaled (num den : Nat) (e : Int) : Nat × Nat :=
  if 0 ≤ e then (num, den * Nat.pow 2 e.toNat) else (num * Nat.pow 2 (-e).toNat, den)

/-- The exponent at which `num / den` has a whole part of 53 bits, but at least the least one. -/
def exponentOf (num den : Nat) : Int :=
  let e : Int := (Nat.log2 num : Int) - (Nat.log2 den : Int) - 53
  let (n, d) := scaled num den e
  max (-1074) (if n / d < Nat.pow 2 53 then e else e + 1)

def nearest? (negative : Bool) (num den : Nat) : Option Binary64 :=
  if num = 0 then some (zero negative)
  else
    let e := exponentOf num den
    let (n, d) := scaled num den e
    let m := divNearest n d
    let (m, e) := if m = Nat.pow 2 53 then (Nat.pow 2 52, e + 1) else (m, e)
    if 971 < e then none else some ⟨negative, m, e⟩

def fraction (x : Binary64) : Nat × Nat :=
  if 0 ≤ x.exponent then (x.mantissa * Nat.pow 2 x.exponent.toNat, 1)
  else (x.mantissa, Nat.pow 2 (-x.exponent).toNat)

def mul? (x y : Binary64) : Option Binary64 :=
  let (a, b) := x.fraction
  let (c, d) := y.fraction
  nearest? (x.negative != y.negative) (a * c) (b * d)

def div? (x y : Binary64) : Option Binary64 :=
  let (a, b) := x.fraction
  let (c, d) := y.fraction
  nearest? (x.negative != y.negative) (a * d) (b * c)

def tenTo? (k : Nat) : Option Binary64 := nearest? false (Nat.pow 10 k) 1

/-- A number divided by `10 ^ n`, in steps of at most 308 powers. -/
def shrink (x : Binary64) (n : Nat) : Binary64 :=
  if x.mantissa = 0 then x
  else
    let step (k : Nat) : Binary64 := ((tenTo? k).bind x.div?).getD (zero x.negative)
    if n ≤ 308 then step n else shrink (step 308) (n - 308)
termination_by n

/-- The value of `significand * 10 ^ exponent`: the significand is rounded first and the product
or quotient with the power of ten once more. Too great a number has none. -/
def ofDecimal? (negative : Bool) (significand : Nat) (exponent : Int) : Option Binary64 := do
  let x ← nearest? negative significand 1
  if exponent < 0 then pure (x.shrink (-exponent).toNat)
  else if exponent ≤ 308 then x.mul? (← tenTo? exponent.toNat)
  else if significand = 0 then pure x
  else none

/-- A decimal fraction: `digits * 10 ^ exponent`. -/
structure Decimal where
  digits : Nat
  exponent : Int
  deriving DecidableEq, Repr

/-- The power of ten of the leading digit of `num / den`, which is not zero. -/
def leadingPower (num den : Nat) : Int :=
  if den ≤ num then ((digits 10 (num / den)).length : Int) - 1
  else
    let rec search : Nat → Nat → Int
      | 0, k => -(k : Int)
      | steps + 1, k => if den ≤ num * Nat.pow 10 k then -(k : Int) else search steps (k + 1)
    search 400 1

/-- Whether `d * 10 ^ k` rounds to a number whose mantissa is `m` and exponent is `q`: it lies
between the midpoints to the neighbours, and may be one of them if the mantissa is even. -/
def roundsTo (m : Nat) (q : Int) (d : Nat) (k : Int) : Bool :=
  let quarter : Nat := if m = Nat.pow 2 52 ∧ -1074 < q then 1 else 2
  -- everything is counted in units of `2 ^ (q - 2) * 10 ^ min k 0`
  let lift (n : Nat) : Nat := if k < 0 then n * Nat.pow 10 (-k).toNat else n
  let low := lift (4 * m - quarter)
  let high := lift (4 * m + 2)
  let point := if k < 0 then d else d * Nat.pow 10 k.toNat
  let scale := q - 2
  let (low, high, point) :=
    if scale < 0 then (low, high, point * Nat.pow 2 (-scale).toNat)
    else (low * Nat.pow 2 scale.toNat, high * Nat.pow 2 scale.toNat, point)
  if m % 2 = 0 then low ≤ point && point ≤ high else low < point && point < high

/-- The decimal with the fewest digits that rounds to a number other than zero, and of several
the nearest to it. -/
def shortest (x : Binary64) : Decimal :=
  let (num, den) := x.fraction
  let lead := leadingPower num den
  let rec search : Nat → Nat → Decimal
    | 0, _ => ⟨x.mantissa, 0⟩
    | steps + 1, count =>
        let k : Int := lead - count + 1
        let (n, d) :=
          if 0 ≤ k then (num, den * Nat.pow 10 k.toNat) else (num * Nat.pow 10 (-k).toNat, den)
        let below := n / d
        let near := divNearest n d
        let far := if near = below then below + 1 else below
        if roundsTo x.mantissa x.exponent near k then ⟨near, k⟩
        else if roundsTo x.mantissa x.exponent far k then ⟨far, k⟩
        else search steps (count + 1)
  search 17 1

/-- The text of a number: its shortest decimal, positional from `10 ^ -5` up to `10 ^ 16` and
with at least one decimal place, otherwise with a signed power of ten. -/
def text (x : Binary64) : String :=
  let sign := if x.negative then "-" else ""
  if x.mantissa = 0 then sign ++ "0.0"
  else
    let shortest := x.shortest
    let trailing := ((Numeral.digits 10 shortest.digits).reverse.takeWhile (· = '0')).length
    let ds := Numeral.digits 10 (shortest.digits / Nat.pow 10 trailing)
    let lead : Int := shortest.exponent + trailing + ds.length - 1
    let body : List Char :=
      if lead < -5 ∨ 15 < lead then
        let fractional := if ds.length = 1 then [] else '.' :: ds.drop 1
        let mark := if lead < 0 then '-' else '+'
        ds.take 1 ++ fractional ++ 'e' :: mark :: Numeral.digits 10 lead.natAbs
      else if lead < 0 then
        '0' :: '.' :: List.replicate (lead.natAbs - 1) '0' ++ ds
      else if ds.length ≤ lead.toNat + 1 then
        ds ++ List.replicate (lead.toNat + 1 - ds.length) '0' ++ ['.', '0']
      else
        ds.take (lead.toNat + 1) ++ '.' :: ds.drop (lead.toNat + 1)
    sign ++ String.ofList body

end Binary64

end TerminalGateway.Numeral

import TerminalGateway.Json.Cursor

/-!
Numbers: reading one as a value, and passing over one. A number is kept exactly while it is an
integer of at most 64 bits; otherwise it is rounded to a binary fraction. Only the digits that
fit into 64 bits count for that, and the significand is rounded before it is scaled.
-/

namespace TerminalGateway.Json

open Numeral (isDigit)

namespace Cursor

def takeDigits (c : Cursor) : List Char × Cursor :=
  let ds := c.rest.takeWhile isDigit
  (ds, ⟨c.rest.dropWhile isDigit, c.position.right ds.length⟩)

def sees (c : Cursor) (p : Char → Bool) : Bool :=
  match c.rest with
  | [] => false
  | x :: _ => p x

end Cursor

/-- The letter before a power of ten. -/
def isPowerMark (x : Char) : Bool := x = 'e' || x = 'E'

/-- A significand with as many further digits as 64 bits can hold, and how many those are. -/
def absorb (significand : Nat) : List Char → Nat × Nat
  | [] => (significand, 0)
  | d :: ds =>
      let longer := significand * 10 + (Numeral.digit? 10 d).getD 0
      if longer < 0x10000000000000000 then
        let (s, n) := absorb longer ds
        (s, n + 1)
      else (significand, 0)

/-- The digits before the point: a zero alone, or digits that begin with another one. -/
def readWhole (c : Cursor) : Reading (List Char) :=
  match c.rest with
  | [] => .error (c.fault .endInValue)
  | x :: _ =>
      if x = '0' then
        if c.advance.sees isDigit then .error (c.advance.faultAhead .invalidNumber)
        else .ok (['0'], c.advance)
      else if isDigit x then .ok c.takeDigits
      else .error (c.faultAhead .invalidNumber)

/-- The digits after the point, of which there is at least one. -/
def readPlaces (c : Cursor) : Reading (List Char) :=
  let (ds, after) := c.takeDigits
  if ds.isEmpty then
    .error (if c.rest.isEmpty then c.fault .endInValue else c.faultAhead .invalidNumber)
  else .ok (ds, after)

/-- The sign of a power of ten: whether it is negative. -/
def readPowerSign (c : Cursor) : Bool × Cursor :=
  if c.sees (· = '+') then (false, c.advance)
  else if c.sees (· = '-') then (true, c.advance)
  else (false, c)

/-- The digits of a power of ten up to the first that takes it beyond 31 bits, if one does. -/
def excess? (power : Nat) (seen : Nat) : List Char → Option Nat
  | [] => none
  | d :: ds =>
      let power := power * 10 + (Numeral.digit? 10 d).getD 0
      if power < 0x80000000 then excess? power (seen + 1) ds else some (seen + 1)

/-- The power of ten after its mark, as a change of the exponent; none if it has more than 31
bits, which no significand but zero survives upwards, and downwards none. -/
def readPower (significand : Nat) (c : Cursor) : Reading (Option Int) :=
  let (negative, c) := readPowerSign c
  let (ds, after) := c.takeDigits
  if ds.isEmpty then
    .error (if c.rest.isEmpty then c.fault .endInValue else c.faultAhead .invalidNumber)
  else
    match excess? 0 0 ds with
    | none =>
        let power : Int := Numeral.value 10 ds
        .ok (some (if negative then -power else power), after)
    | some n =>
        if significand ≠ 0 ∧ !negative then .error ((c.advanceBy n).fault .numberTooGreat)
        else .ok (none, after)

def roundAt (negative : Bool) (significand : Nat) (exponent : Option Int) (c : Cursor) :
    Reading Number :=
  match exponent with
  | none => .ok (.real (.zero negative), c)
  | some e =>
      match Numeral.Binary64.ofDecimal? negative significand e with
      | some x => .ok (.real x, c)
      | none => .error (c.fault .numberTooGreat)

def readScaled (negative : Bool) (significand : Nat) (exponent : Int) (c : Cursor) :
    Reading Number :=
  if c.sees isPowerMark then
    match readPower significand c.advance with
    | .error f => .error f
    | .ok (power, c) => roundAt negative significand (power.map (exponent + ·)) c
  else roundAt negative significand (some exponent) c

/-- An integer, exact if it has at most 64 bits and is not a negative zero. -/
def integerOf? (negative : Bool) (n : Nat) : Option Int :=
  if !negative then some n
  else if 0 < n ∧ n ≤ 0x8000000000000000 then some (-n)
  else none

def readFigure (negative : Bool) (c : Cursor) : Reading Number :=
  match readWhole c with
  | .error f => .error f
  | .ok (whole, c) =>
      let (significand, held) := absorb 0 whole
      let dropped : Int := whole.length - held
      if c.sees (· = '.') then
        match readPlaces c.advance with
        | .error f => .error f
        | .ok (places, c) =>
            let (significand, held) := absorb significand places
            readScaled negative significand (dropped - held) c
      else if c.sees isPowerMark || dropped ≠ 0 then readScaled negative significand dropped c
      else
        match integerOf? negative significand with
        | some i => .ok (.integer i, c)
        | none => roundAt negative significand (some 0) c

def skipDigits (c : Cursor) : Except Fault Cursor :=
  let (ds, after) := c.takeDigits
  if ds.isEmpty then .error (c.faultAhead .invalidNumber) else .ok after

def skipFigure (c : Cursor) : Except Fault Cursor := do
  let c ←
    if c.sees (· = '0') then
      if c.advance.sees isDigit then throw (c.advance.faultAhead .invalidNumber)
      else pure c.advance
    else skipDigits c
  let c ← if c.sees (· = '.') then skipDigits c.advance else pure c
  if c.sees isPowerMark then skipDigits (readPowerSign c.advance).2 else pure c

end TerminalGateway.Json

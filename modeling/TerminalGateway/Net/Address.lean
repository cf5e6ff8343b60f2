import TerminalGateway.Numeral.Digits

/-!
Internet addresses and their texts.
-/

namespace TerminalGateway.Net

inductive Address
  | v4 (bits : BitVec 32)
  | v6 (bits : BitVec 128)
  deriving DecidableEq, Repr

/-- What a text may be beyond the plain form of an address: whether an octet may begin with
zeros, and whether `::` may stand for no group at all. -/
structure Leniency where
  leadingZeros : Bool
  emptyGap : Bool

/-- The form in which an address stands alone. -/
def Leniency.plain : Leniency := ⟨false, false⟩

/-- The form in which an address stands before a prefix length. -/
def Leniency.network : Leniency := ⟨true, true⟩

/-- A number of at most `width` digits below `limit`, and what follows its digits. -/
def number? (base width limit : Nat) (leadingZeros : Bool) (cs : List Char) :
    Option (Nat × List Char) :=
  let ds := cs.takeWhile fun c => (Numeral.digit? base c).isSome
  let n := Numeral.value base ds
  if ds.isEmpty || width < ds.length || limit ≤ n then none
  else if !leadingZeros && 1 < ds.length && ds.head? = some '0' then none
  else some (n, cs.drop ds.length)

def after? (x : Char) : List Char → Option (List Char)
  | [] => none
  | c :: cs => if c = x then some cs else none

def quad? (l : Leniency) (cs : List Char) : Option (Nat × List Char) := do
  let octet := number? 10 3 256 l.leadingZeros
  let (a, cs) ← octet cs
  let (b, cs) ← octet (← after? '.' cs)
  let (c, cs) ← octet (← after? '.' cs)
  let (d, cs) ← octet (← after? '.' cs)
  return (((a * 256 + b) * 256 + c) * 256 + d, cs)

/-- Groups of sixteen bits that were read in a row, whether the last two of them were written as
four octets, and what follows. -/
structure Groups where
  values : List Nat
  endsInQuad : Bool
  rest : List Char

/-- At most `most` groups with colons between them. -/
def groups (l : Leniency) : Nat → Bool → List Char → Groups
  | 0, _, cs => ⟨[], false, cs⟩
  | most + 1, isFirst, cs =>
      match if isFirst then some cs else after? ':' cs with
      | none => ⟨[], false, cs⟩
      | some r =>
          match if 1 ≤ most then quad? l r else none with
          | some (q, r) => ⟨[q / 65536, q % 65536], true, r⟩
          | none =>
              match number? 16 4 65536 true r with
              | none => ⟨[], false, cs⟩
              | some (g, r) =>
                  let more := groups l most false r
                  ⟨g :: more.values, more.endsInQuad, more.rest⟩

/-- Eight groups, some of which `::` may stand for, and what follows. -/
def eight? (l : Leniency) (cs : List Char) : Option (List Nat × List Char) := do
  let front := groups l 8 true cs
  if front.values.length = 8 then return (front.values, front.rest)
  if front.endsInQuad then none
  let rest ← after? ':' (← after? ':' front.rest)
  let most := 8 - front.values.length - (if l.emptyGap then 0 else 1)
  let back := groups l most true rest
  let gap := 8 - front.values.length - back.values.length
  return (front.values ++ List.replicate gap 0 ++ back.values, back.rest)

def ofGroups (gs : List Nat) : BitVec 128 :=
  BitVec.ofNat 128 (gs.foldl (fun n g => n * 65536 + g) 0)

def groupsOf (bits : BitVec 128) : List Nat :=
  [112, 96, 80, 64, 48, 32, 16, 0].map fun shift => (bits.toNat >>> shift) % 65536

def quadText (n : Nat) : String :=
  Numeral.decimal (n / 16777216 % 256) ++ "." ++ Numeral.decimal (n / 65536 % 256) ++ "."
    ++ Numeral.decimal (n / 256 % 256) ++ "." ++ Numeral.decimal (n % 256)

def zeros (gs : List Nat) : Nat := (gs.takeWhile (· = 0)).length

/-- Where the longest run of zeros begins and how long it is; of several the first. -/
def longestGap (gs : List Nat) : Nat × Nat :=
  (List.range gs.length).foldl
    (fun best i =>
      let n := zeros (gs.drop i)
      if best.2 < n then (i, n) else best)
    (0, 0)

def groupsText (gs : List Nat) : String := ":".intercalate (gs.map Numeral.hexadecimal)

namespace Address

def ofText? (cs : List Char) : Option Address :=
  match quad? .plain cs with
  | some (n, rest) => if rest.isEmpty then some (.v4 (BitVec.ofNat 32 n)) else none
  | none =>
      match eight? .plain cs with
      | some (gs, rest) => if rest.isEmpty then some (.v6 (ofGroups gs)) else none
      | none => none

/-- The text of an address: groups in small letters, with `::` for the longest run of at least
two zero groups, and four octets at the end of an address that stands for one of 32 bits. -/
def text : Address → String
  | .v4 bits => quadText bits.toNat
  | .v6 bits =>
      if bits.toNat >>> 32 = 0xffff then "::ffff:" ++ quadText bits.toNat
      else
        let gs := groupsOf bits
        let (start, length) := longestGap gs
        if length ≤ 1 then groupsText gs
        else groupsText (gs.take start) ++ "::" ++ groupsText (gs.drop (start + length))

def textWithPort (a : Address) (port : Nat) : String :=
  match a with
  | .v4 _ => a.text ++ ":" ++ Numeral.decimal port
  | .v6 _ => "[" ++ a.text ++ "]:" ++ Numeral.decimal port

end Address

end TerminalGateway.Net

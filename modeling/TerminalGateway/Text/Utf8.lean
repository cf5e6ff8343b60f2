/-!
Text as octets. `scan` reads a sequence of octets as characters and marks what is not one, so
that strict and lenient reading differ only in what they do with the marks.
-/

namespace TerminalGateway

/-- A sequence of octets, as it travels on a connection. -/
abbrev Octets := List UInt8

namespace Text.Utf8

def encode (cs : List Char) : Octets :=
  cs.flatMap String.utf8EncodeChar

/-- A character of several octets of which some have been read: the bits so far, the number of
octets still owed, and the least and the greatest octet that may come next. -/
structure Partial where
  bits : Nat
  owed : Nat
  low : UInt8
  high : UInt8
  deriving DecidableEq, Repr

/-- What an octet between characters is: a character, the first octet of a longer one, or
neither. The bounds on the second octet leave out overlong forms, surrogates and code points
above the last one. -/
def first (b : UInt8) : Option (Char ⊕ Partial) :=
  if b < 0x80 then some (.inl (Char.ofNat b.toNat))
  else if b < 0xc2 then none
  else if b < 0xe0 then some (.inr ⟨b.toNat % 32, 1, 0x80, 0xbf⟩)
  else if b = 0xe0 then some (.inr ⟨0, 2, 0xa0, 0xbf⟩)
  else if b = 0xed then some (.inr ⟨13, 2, 0x80, 0x9f⟩)
  else if b < 0xf0 then some (.inr ⟨b.toNat % 16, 2, 0x80, 0xbf⟩)
  else if b = 0xf0 then some (.inr ⟨0, 3, 0x90, 0xbf⟩)
  else if b < 0xf4 then some (.inr ⟨b.toNat % 8, 3, 0x80, 0xbf⟩)
  else if b = 0xf4 then some (.inr ⟨4, 3, 0x80, 0x8f⟩)
  else none

def Partial.push (p : Partial) (b : UInt8) : Char ⊕ Partial :=
  let bits := p.bits * 64 + b.toNat % 64
  if p.owed ≤ 1 then .inl (Char.ofNat bits) else .inr ⟨bits, p.owed - 1, 0x80, 0xbf⟩

def begin (b : UInt8) : List (Option Char) × Option Partial :=
  match first b with
  | none => ([none], none)
  | some (.inl c) => ([some c], none)
  | some (.inr p) => ([], some p)

/-- One octet more. One that cannot continue the character begun ends it with a mark and is
then read as if it stood between characters. -/
def step (pending : Option Partial) (b : UInt8) : List (Option Char) × Option Partial :=
  match pending with
  | none => begin b
  | some p =>
      if p.low ≤ b && b ≤ p.high then
        match p.push b with
        | .inl c => ([some c], none)
        | .inr q => ([], some q)
      else
        let (marks, next) := begin b
        (none :: marks, next)

/-- The characters of a sequence of octets after a part of a character; `none` marks a longest
run of octets that begins a character and does not complete one, or an octet that begins none. -/
def scan (pending : Option Partial) : Octets → List (Option Char)
  | [] => if pending.isSome then [none] else []
  | b :: r => (step pending b).1 ++ scan (step pending b).2 r

/-- The text of octets that are nothing but characters. -/
def decode? (bytes : Octets) : Option (List Char) :=
  (scan none bytes).mapM id

/-- The text of any octets, with a replacement character for every mark. -/
def decodeLossy (bytes : Octets) : List Char :=
  (scan none bytes).map (·.getD '\ufffd')

end Text.Utf8

end TerminalGateway

import TerminalGateway.Json.Cursor

/-!
Strings: reading one as text, and passing over one whose text nobody asks for. Passing over
checks the form of an escape but not which character it is, so that half a surrogate pair is
passed over and not read.
-/

namespace TerminalGateway.Json

def shortEscape? (x : Char) : Option Char :=
  if x = '"' || x = '\\' || x = '/' then some x
  else if x = 'b' then some '\x08'
  else if x = 'f' then some '\x0c'
  else if x = 'n' then some '\n'
  else if x = 'r' then some '\r'
  else if x = 't' then some '\t'
  else none

def codeUnit? (a b c d : Char) : Option Nat := do
  let a ← Numeral.digit? 16 a
  let b ← Numeral.digit? 16 b
  let c ← Numeral.digit? 16 c
  let d ← Numeral.digit? 16 d
  return ((a * 16 + b) * 16 + c) * 16 + d

/-- The first half of a surrogate pair. -/
def isLead (n : Nat) : Bool := 0xd800 ≤ n && n ≤ 0xdbff

/-- The second half of a surrogate pair. -/
def isTrail (n : Nat) : Bool := 0xdc00 ≤ n && n ≤ 0xdfff

def pairedChar (lead trail : Nat) : Char :=
  Char.ofNat ((lead - 0xd800) * 0x400 + (trail - 0xdc00) + 0x10000)

/-- The place after a number of octets, which may end inside a character. -/
def pastOctets (p : Position) : Nat → List Char → Position
  | _, [] => p
  | n, x :: r =>
      if n = 0 then p
      else if x.utf8Size ≤ n then pastOctets (p.past x) (n - x.utf8Size) r
      else ⟨p.line, p.column + n⟩

/-- What is wrong when no four hexadecimal digits follow: the text ends within four octets, or
these octets are something else. -/
def codeUnitFault (p : Position) (r : List Char) : Fault :=
  if r.foldl (fun n x => n + x.utf8Size) 0 < 4 then ⟨.endInString, some (r.foldl Position.past p)⟩
  else ⟨.invalidEscape, some (pastOctets p 4 r)⟩

/-- The rest of a string, up to and with the closing quotation mark. `done` holds the characters
read, the last of them first. -/
def readStringFrom (done : List Char) (p : Position) : List Char → Reading String
  | [] => .error ⟨.endInString, some p⟩
  | x :: r =>
      if x = '"' then .ok (String.ofList done.reverse, ⟨r, p.right 1⟩)
      else if x = '\\' then
        match r with
        | [] => .error ⟨.endInString, some (p.right 1)⟩
        | y :: s =>
            if y = 'u' then
              match s with
              | a :: b :: c :: d :: t =>
                  match codeUnit? a b c d with
                  | none => .error (codeUnitFault (p.right 2) s)
                  | some n =>
                      if isTrail n then .error ⟨.loneSurrogate, some (p.right 6)⟩
                      else if isLead n then
                        match t with
                        | [] => .error ⟨.endInString, some (p.right 6)⟩
                        | y :: u =>
                            if y = '\\' then
                              match u with
                              | [] => .error ⟨.endInString, some (p.right 7)⟩
                              | z :: v =>
                                  if z = 'u' then
                                    match v with
                                    | a :: b :: c :: d :: w =>
                                        match codeUnit? a b c d with
                                        | none => .error (codeUnitFault (p.right 8) v)
                                        | some m =>
                                            if isTrail m then
                                              readStringFrom (pairedChar n m :: done) (p.right 12) w
                                            else .error ⟨.loneSurrogate, some (p.right 12)⟩
                                    | _ => .error (codeUnitFault (p.right 8) v)
                                  else .error ⟨.unfinishedPair, some ((p.right 7).pastOctet z)⟩
                            else .error ⟨.unfinishedPair, some ((p.right 6).pastOctet y)⟩
                      else readStringFrom (Char.ofNat n :: done) (p.right 6) t
              | _ => .error (codeUnitFault (p.right 2) s)
            else
              match shortEscape? y with
              | some y => readStringFrom (y :: done) (p.right 2) s
              | none => .error ⟨.invalidEscape, some ((p.right 1).pastOctet y)⟩
      else if x < ' ' then .error ⟨.controlCharacter, some (p.past x)⟩
      else readStringFrom (x :: done) (p.past x) r

def readString (c : Cursor) : Reading String := readStringFrom [] c.position c.rest

def skipStringFrom (p : Position) : List Char → Except Fault Cursor
  | [] => .error ⟨.endInString, some p⟩
  | x :: r =>
      if x = '"' then .ok ⟨r, p.right 1⟩
      else if x = '\\' then
        match r with
        | [] => .error ⟨.endInString, some (p.right 1)⟩
        | y :: s =>
            if y = 'u' then
              match s with
              | a :: b :: c :: d :: t =>
                  if (codeUnit? a b c d).isSome then skipStringFrom (p.right 6) t
                  else .error (codeUnitFault (p.right 2) s)
              | _ => .error (codeUnitFault (p.right 2) s)
            else if (shortEscape? y).isSome then skipStringFrom (p.right 2) s
            else .error ⟨.invalidEscape, some ((p.right 1).pastOctet y)⟩
      else if x < ' ' then .error ⟨.controlCharacter, some p⟩
      else skipStringFrom (p.past x) r

def skipString (c : Cursor) : Except Fault Cursor := skipStringFrom c.position c.rest

end TerminalGateway.Json

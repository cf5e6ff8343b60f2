import TerminalGateway.Json.Fault

/-!
A place in a text together with what is still to be read there.
-/

namespace TerminalGateway.Json

structure Cursor where
  rest : List Char
  position : Position
  deriving DecidableEq, Repr

abbrev Reading (α : Type) := Except Fault (α × Cursor)

namespace Cursor

def ofText (text : String) : Cursor := ⟨text.toList, .start⟩

def advance (c : Cursor) : Cursor :=
  match c.rest with
  | [] => c
  | x :: r => ⟨r, c.position.past x⟩

def advanceBy : Nat → Cursor → Cursor
  | 0, c => c
  | n + 1, c => advanceBy n c.advance

def fault (c : Cursor) (cause : Cause) : Fault := ⟨cause, some c.position⟩

/-- A fault of the next character, placed after its first octet. -/
def faultAhead (c : Cursor) (cause : Cause) : Fault :=
  match c.rest with
  | [] => c.fault cause
  | x :: _ => ⟨cause, some (c.position.pastOctet x)⟩

/-- Space, tabulator and line ends may stand between the parts of a text. -/
def isGap (x : Char) : Bool := x = ' ' || x = '\n' || x = '\t' || x = '\r'

def skipGapFrom (position : Position) : List Char → Cursor
  | [] => ⟨[], position⟩
  | x :: r => if isGap x then skipGapFrom (position.past x) r else ⟨x :: r, position⟩

def skipGap (c : Cursor) : Cursor := skipGapFrom c.position c.rest

end Cursor

end TerminalGateway.Json

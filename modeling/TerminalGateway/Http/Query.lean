import TerminalGateway.Numeral.Digits
import TerminalGateway.Text.Split
import TerminalGateway.Text.Utf8

/-!
The query of a request for a session. Names and values are percent-encoded, with `+` for a space.
-/

namespace TerminalGateway.Http

/-- The octets that a percent-encoded text stands for. A percent sign without two hexadecimal
digits after it stands for itself. -/
def percentDecode : Octets → Octets
  | 0x25 :: a :: b :: r =>
      match Numeral.digit? 16 (Char.ofNat a.toNat), Numeral.digit? 16 (Char.ofNat b.toNat) with
      | some high, some low => UInt8.ofNat (high * 16 + low) :: percentDecode r
      | _, _ => 0x25 :: percentDecode (a :: b :: r)
  | b :: r => b :: percentDecode r
  | [] => []

def decodeComponent (cs : List Char) : String :=
  let spaced := cs.map fun c => if c = '+' then ' ' else c
  String.ofList (Text.Utf8.decodeLossy (percentDecode (Text.Utf8.encode spaced)))

/-- The names of a query with their values; a name without `=` has an empty value. -/
def queryPairs (query : List Char) : List (String × String) :=
  ((Text.pieces '&' query).filter (!·.isEmpty)).map fun piece =>
    match Text.cut? '=' piece with
    | some (name, value) => (decodeComponent name, decodeComponent value)
    | none => (decodeComponent piece, "")

/-- What the query of a request for a session may say: the target of the credentials that came
with the request, and the environment of the session. -/
structure SessionQuery where
  host : Option String := none
  port : Option Nat := none
  env : Option String := none
  deriving DecidableEq, Repr

namespace SessionQuery

/-- The query with one more pair; a name may come once only, and a port has to be one. -/
def add? (q : SessionQuery) (pair : String × String) : Option SessionQuery :=
  let (name, value) := pair
  if name = "host" then
    if q.host.isSome then none else some { q with host := some value }
  else if name = "port" then
    if q.port.isSome then none
    else (Numeral.read? 0xffff value.toList).map fun port => { q with port := some port }
  else if name = "env" then
    if q.env.isSome then none else some { q with env := some value }
  else some q

def ofText? (query : List Char) : Option SessionQuery :=
  (queryPairs query).foldlM add? {}

end SessionQuery

end TerminalGateway.Http

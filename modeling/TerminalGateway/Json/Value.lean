import TerminalGateway.Numeral.Binary64

/-!
JSON values. The fields of an object keep the order in which their names first occurred.
-/

namespace TerminalGateway.Json

/-- A number: an integer of at most 64 bits, or a binary fraction. -/
inductive Number
  | integer (i : Int)
  | real (x : Numeral.Binary64)
  deriving DecidableEq, Repr

inductive Value
  | null
  | bool (b : Bool)
  | number (n : Number)
  | string (s : String)
  | array (items : List Value)
  | object (fields : List (String × Value))
  deriving Repr, Inhabited

/-- The fields with a value put under a name: in the place of an earlier value of that name, or
at the end. -/
def putField (fields : List (String × Value)) (name : String) (v : Value) :
    List (String × Value) :=
  match fields with
  | [] => [(name, v)]
  | (n, w) :: rest => if n = name then (n, v) :: rest else (n, w) :: putField rest name v

def field? (fields : List (String × Value)) (name : String) : Option Value :=
  (fields.find? fun f => f.1 = name).map (·.2)

end TerminalGateway.Json

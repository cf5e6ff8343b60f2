import TerminalGateway.Text.Blank
import TerminalGateway.Text.Split

/-!
Environment variables that a client asks for. Only pairs with a plain name, of bounded size and
on the allowlist reach a server, and only a bounded number of them.
-/

namespace TerminalGateway.Environment

/-- Names with their values, in the order of the request. -/
abbrev Pairs := List (String × String)

/-- The most octets of a name. -/
def nameLimit : Nat := 32

/-- The most octets of a value. -/
def valueLimit : Nat := 512

def pairLimit : Nat := 50

def isNameStart (c : Char) : Bool := ('A' ≤ c && c ≤ 'Z') || ('a' ≤ c && c ≤ 'z') || c = '_'

/-- A letter or underscore, then letters, underscores and digits, all of ASCII. -/
def isName : List Char → Bool
  | [] => false
  | c :: cs => isNameStart c && cs.all fun d => isNameStart d || ('0' ≤ d && d ≤ '9')

/-- Whether a pair may reach a server. An empty allowlist allows every name. -/
def isAllowed (allowlist : List String) (pair : String × String) : Bool :=
  (allowlist.isEmpty || allowlist.contains pair.1) && isName pair.1.toList &&
    pair.1.utf8ByteSize ≤ nameLimit && pair.2.utf8ByteSize ≤ valueLimit

def restrict (allowlist : List String) (pairs : Pairs) : Pairs :=
  (pairs.filter (isAllowed allowlist)).take pairLimit

/-- One pair of a list such as `LANG:C,TERM:vt100`: the name loses the blanks around it, the
value none. -/
def pair? (entry : List Char) : Option (String × String) :=
  (Text.cut? ':' entry).map fun (name, value) =>
    (String.ofList (Text.trim name), String.ofList value)

/-- The pairs of a list, without the entries that have no colon. -/
def ofList (list : String) : Pairs :=
  (Text.pieces ',' list.toList).filterMap pair?

end TerminalGateway.Environment

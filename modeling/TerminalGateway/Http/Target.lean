import TerminalGateway.Text.Utf8

/-!
The target of a request. It is a path of this server, an address with scheme and authority before
the path, or an authority alone. Scheme and authority are checked and then left out: every name
by which the server is called leads to the same paths.
-/

namespace TerminalGateway.Http

/-- A character that has no meaning of its own in an address. -/
def isUnreserved (c : Char) : Bool := c.isAlphanum || "-._~".toList.contains c

def isSubDelimiter (c : Char) : Bool := "!$&\x27()*+,;=".toList.contains c

def isSchemeChar (c : Char) : Bool := c.isAlphanum || "+-.~".toList.contains c

/-- What was read of an authority: the colons and whether there was a percent sign, both since the
last login or bracketed host, and the brackets. -/
structure Authority where
  colons : Nat := 0
  percent : Bool := false
  opened : Bool := false
  closed : Bool := false
  deriving DecidableEq, Repr

namespace Authority

/-- One character more. There is one pair of brackets at most, and a percent sign before it is one
of the login; of colons there are no more than the groups of an address need. -/
def next? (a : Authority) (c : Char) : Option Authority :=
  if c = ':' then
    if a.colons < 8 then some { a with colons := a.colons + 1 } else none
  else if c = '[' then
    if a.percent || a.opened then none else some { a with opened := true }
  else if c = ']' then
    if a.opened && !a.closed then
      some { a with closed := true, colons := 0, percent := false }
    else none
  else if c = '@' then some { a with colons := 0, percent := false }
  else if c = '%' then some { a with percent := true }
  else if isUnreserved c || isSubDelimiter c then some a
  else none

/-- Brackets are closed, and after the login there is one colon at most and nothing encoded. -/
def isComplete (a : Authority) : Bool := a.opened = a.closed && a.colons ≤ 1 && !a.percent

/-- An authority: a login before `@`, which may be missing, a host and a port. -/
def accepts (cs : List Char) : Bool :=
  cs.getLast? ≠ some '@' && ((cs.foldlM next? {}).map isComplete).getD false

end Authority

structure Target where
  path : String
  query : List Char
  deriving DecidableEq, Repr

namespace Target

def schemeLimit : Nat := 64

/-- The most octets of a target. -/
def sizeLimit : Nat := 65534

def afterScheme? (cs : List Char) : Option (List Char) :=
  let scheme := cs.takeWhile isSchemeChar
  match cs.drop scheme.length with
  | ':' :: '/' :: '/' :: rest => if scheme.length ≤ schemeLimit then some rest else none
  | _ => none

def inPath (c : Char) : Bool := ' ' < c && !"<>\x60".toList.contains c

def inQuery (c : Char) : Bool := ' ' < c && !"<>\"".toList.contains c

/-- Path and query; a fragment, which nothing is demanded of, does not count. An empty path is
the root. -/
def ofResource? (cs : List Char) : Option Target :=
  let resource := cs.takeWhile (· ≠ '#')
  let path := resource.takeWhile (· ≠ '?')
  let query := (resource.dropWhile (· ≠ '?')).drop 1
  if path.all inPath && query.all inQuery then
    some ⟨if path.isEmpty then "/" else String.ofList path, query⟩
  else none

def endsAuthority (c : Char) : Bool := c = '/' || c = '?' || c = '#'

/-- An authority alone has an empty path. -/
def ofText? (text : String) : Option Target :=
  let cs := text.toList
  if text.isEmpty || sizeLimit < text.utf8ByteSize then none
  else if cs.head? = some '/' then ofResource? cs
  else
    match afterScheme? cs with
    | some rest =>
        let authority := rest.takeWhile (!endsAuthority ·)
        if !authority.isEmpty && Authority.accepts authority then
          ofResource? (rest.drop authority.length)
        else none
    | none => if Authority.accepts cs then some ⟨"", []⟩ else none

end Target

end TerminalGateway.Http

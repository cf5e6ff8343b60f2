import TerminalGateway.Net.Address
import TerminalGateway.Text.Blank
import TerminalGateway.Text.Split

/-!
Networks, and the check of a target against a list of them.
-/

namespace TerminalGateway.Net

/-- All addresses that share their first bits with a given one. -/
inductive Subnet
  | v4 (bits : BitVec 32) (length : Nat)
  | v6 (bits : BitVec 128) (length : Nat)
  deriving DecidableEq, Repr

namespace Subnet

def ofAddress : Address → Subnet
  | .v4 bits => .v4 bits 32
  | .v6 bits => .v6 bits 128

def ofNetworkText? (cs : List Char) : Option Subnet :=
  match quad? .network cs with
  | some (n, rest) => do
      let (length, rest) ← number? 10 2 33 true (← after? '/' rest)
      if rest.isEmpty then some (.v4 (BitVec.ofNat 32 n) length) else none
  | none => do
      let (gs, rest) ← eight? .network cs
      let (length, rest) ← number? 10 3 129 true (← after? '/' rest)
      if rest.isEmpty then some (.v6 (ofGroups gs) length) else none

/-- The network that a text is, or the network of the address that it is. -/
def ofText? (cs : List Char) : Option Subnet :=
  match ofNetworkText? cs with
  | some net => some net
  | none => (Address.ofText? cs).map ofAddress

/-- The text of a network, with all bits of its address. -/
def text : Subnet → String
  | .v4 bits length => (Address.v4 bits).text ++ "/" ++ Numeral.decimal length
  | .v6 bits length => (Address.v6 bits).text ++ "/" ++ Numeral.decimal length

def contains : Subnet → Address → Bool
  | .v4 bits length, .v4 a => a >>> (32 - length) == bits >>> (32 - length)
  | .v6 bits length, .v6 a => a >>> (128 - length) == bits >>> (128 - length)
  | _, _ => false

end Subnet

/-- The entries of a list with commas, without the blanks around them and without empty ones. -/
def entries (list : String) : List (List Char) :=
  ((Text.pieces ',' list.toList).map Text.trim).filter (!·.isEmpty)

inductive TargetRefusal
  | unresolved (host : String) (reason : String)
  | noAddress (host : String)
  | outside (host : String) (address : Address)
  deriving DecidableEq, Repr

def TargetRefusal.text : TargetRefusal → String
  | .unresolved host reason => "Unable to resolve host " ++ host ++ ": " ++ reason
  | .noAddress host => "Unable to resolve host " ++ host
  | .outside host address =>
      "Connections to " ++ host ++ " (" ++ address.text ++ ") are not allowed"

/-- The addresses of a name, or why it has none. -/
abbrev Lookup := String → Except String (List Address)

def noNames : Lookup := fun _ =>
  .error "failed to lookup address information: Temporary failure in name resolution"

/-- The address that a host is in itself, with any brackets around it. -/
def literal? (host : String) : Option Address :=
  let cs := host.toList.dropWhile (· = '[')
  Address.ofText? (cs.reverse.dropWhile (· = ']')).reverse

/-- A look-up that refuses names with a null character, which no name may have. -/
def lookUp (lookup : Lookup) (host : String) : Except String (List Address) :=
  if host.toList.contains '\x00' then .error "file name contained an unexpected NUL byte"
  else lookup host

/-- Whether a host may be connected to whose addresses were found as told: each of them has to lie
in one of the networks. -/
def judge (nets : List Subnet) (host : String) (found : Except String (List Address)) :
    Except TargetRefusal Unit :=
  match found with
  | .error reason => .error (.unresolved host reason)
  | .ok [] => .error (.noAddress host)
  | .ok addresses =>
      match addresses.find? fun a => !nets.any fun net => net.contains a with
      | some a => .error (.outside host a)
      | none => .ok ()

/-- Whether a host may be connected to. Only a host that is no address is looked up. -/
def checkTarget (lookup : Lookup) (nets : List Subnet) (host : String) :
    Except TargetRefusal Unit :=
  match literal? host with
  | some a => judge nets host (.ok [a])
  | none => judge nets host (lookUp lookup host)

end TerminalGateway.Net

import TerminalGateway.Json.Layout
import TerminalGateway.Message.Basic
import TerminalGateway.Message.Envelope
import TerminalGateway.Message.Rejection

/-!
Messages from text. The envelope is read first, then the payload as the record of its kind, and
last the rules of that kind are applied in a fixed order, of which the first broken one is
reported.
-/

namespace TerminalGateway

open Json

/-- The payload of an `auth` message, before its rules are applied. -/
structure AuthFields where
  username : Option String := none
  host : Option String := none
  port : Option Int := none
  password : Option String := none
  privateKey : Option String := none
  passphrase : Option String := none
  term : Option String := none
  cols : Option Int := none
  rows : Option Int := none
  deriving DecidableEq, Repr

structure TerminalFields where
  term : Option String := none
  rows : Option Int := none
  cols : Option Int := none
  deriving DecidableEq, Repr

structure ResizeFields where
  rows : Option Int := none
  cols : Option Int := none
  deriving DecidableEq, Repr

structure ExecFields where
  command : Option String := none
  pty : Option Bool := none
  term : Option String := none
  cols : Option Int := none
  rows : Option Int := none
  env : Option (List (String × Value)) := none
  timeout : Option Int := none
  deriving Repr

structure ControlFields where
  action : Option String := none
  deriving DecidableEq, Repr

def AuthFields.layout : Layout AuthFields where
  name := "RawAuth"
  fields := ["username", "host", "port", "password", "privateKey", "passphrase", "term", "cols",
    "rows"]
  blank := {}
  put r name v :=
    match name with
    | "username" => (optionalString v).map fun x => { r with username := x }
    | "host" => (optionalString v).map fun x => { r with host := x }
    | "port" => (optionalInteger v).map fun x => { r with port := x }
    | "password" => (optionalString v).map fun x => { r with password := x }
    | "privateKey" => (optionalString v).map fun x => { r with privateKey := x }
    | "passphrase" => (optionalString v).map fun x => { r with passphrase := x }
    | "term" => (optionalString v).map fun x => { r with term := x }
    | "cols" => (optionalInteger v).map fun x => { r with cols := x }
    | "rows" => (optionalInteger v).map fun x => { r with rows := x }
    | _ => .ok r

def TerminalFields.layout : Layout TerminalFields where
  name := "RawTerminal"
  fields := ["term", "rows", "cols"]
  blank := {}
  put r name v :=
    match name with
    | "term" => (optionalString v).map fun x => { r with term := x }
    | "rows" => (optionalInteger v).map fun x => { r with rows := x }
    | "cols" => (optionalInteger v).map fun x => { r with cols := x }
    | _ => .ok r

def ResizeFields.layout : Layout ResizeFields where
  name := "RawResize"
  fields := ["rows", "cols"]
  blank := {}
  put r name v :=
    match name with
    | "rows" => (optionalInteger v).map fun x => { r with rows := x }
    | "cols" => (optionalInteger v).map fun x => { r with cols := x }
    | _ => .ok r

def ExecFields.layout : Layout ExecFields where
  name := "RawExec"
  fields := ["command", "pty", "term", "cols", "rows", "env", "timeoutMs"]
  blank := {}
  put r name v :=
    match name with
    | "command" => (optionalString v).map fun x => { r with command := x }
    | "pty" => (optionalBool v).map fun x => { r with pty := x }
    | "term" => (optionalString v).map fun x => { r with term := x }
    | "cols" => (optionalInteger v).map fun x => { r with cols := x }
    | "rows" => (optionalInteger v).map fun x => { r with rows := x }
    | "env" => (optionalFields v).map fun x => { r with env := x }
    | "timeoutMs" => (optionalInteger v).map fun x => { r with timeout := x }
    | _ => .ok r

def ControlFields.layout : Layout ControlFields where
  name := "RawControl"
  fields := ["action"]
  blank := {}
  put r name v :=
    match name with
    | "action" => (optionalString v).map fun x => { r with action := x }
    | _ => .ok r

/-- A text that has to be there and to hold more than blanks. -/
def requireText (field : Field) : Option String → Except Rejection String
  | none => .error (.invalid field .missing)
  | some s => if Text.isAllBlank s.toList then .error (.invalid field .blank) else .ok s

def requireWithin (field : Field) (low high : Nat) (i : Int) : Except Rejection Nat :=
  if (low : Int) ≤ i ∧ i ≤ high then .ok i.toNat else .error (.invalid field (.outside low high))

/-- A number between two bounds, if there is one. -/
def optionalWithin (field : Field) (low high : Nat) :
    Option Int → Except Rejection (Option Nat)
  | none => .ok none
  | some i => (requireWithin field low high i).map some

/-- A number of rows or columns, if there is one. -/
def optionalExtent (field : Field) : Option Int → Except Rejection (Option Nat) :=
  optionalWithin field 1 9999

def nonempty (s : Option String) : Option String := s.filter (!·.isEmpty)

/-- The size of a terminal, with the standard number of rows or columns for a missing one. -/
def Dimensions.ofExtents (rows cols : Option Nat) : Dimensions :=
  ⟨rows.getD Dimensions.standard.rows, cols.getD Dimensions.standard.cols⟩

def AuthFields.check (r : AuthFields) : Except Rejection AuthRequest := do
  let username ← requireText .username r.username
  let host ← requireText .host r.host
  let port ← optionalWithin .port 1 65535 r.port
  let cols ← optionalExtent .cols r.cols
  let rows ← optionalExtent .rows r.rows
  return {
    credentials := {
      host := Credentials.unbracket host
      port := port.getD 22
      username
      password := nonempty r.password
      privateKey := nonempty r.privateKey
      passphrase := nonempty r.passphrase }
    term := nonempty r.term
    dimensions :=
      if rows.isNone && cols.isNone then none else some (Dimensions.ofExtents rows cols) }

def TerminalFields.check (r : TerminalFields) : Except Rejection TerminalRequest := do
  let rows ← optionalExtent .rows r.rows
  let cols ← optionalExtent .cols r.cols
  return { term := nonempty r.term, dimensions := Dimensions.ofExtents rows cols }

def ResizeFields.check (r : ResizeFields) : Except Rejection Dimensions := do
  let some rows := r.rows | throw (.invalid .rows .missing)
  let some cols := r.cols | throw (.invalid .cols .missing)
  let rows ← requireWithin .rows 1 9999 rows
  let cols ← requireWithin .cols 1 9999 cols
  return ⟨rows, cols⟩

/-- The pairs of an `env` object, all of whose values have to be strings. -/
def requirePairs : List (String × Value) → Except Rejection Environment.Pairs
  | [] => .ok []
  | (key, .string s) :: rest => (requirePairs rest).map ((key, s) :: ·)
  | (key, _) :: _ => .error (.invalid .env (.valueNotString key))

def optionalPositive (field : Field) : Option Int → Except Rejection (Option Nat)
  | none => .ok none
  | some i => if 0 < i then .ok (some i.toNat) else .error (.invalid field .notPositive)

def ExecFields.check (r : ExecFields) : Except Rejection ExecRequest := do
  let command ← requireText .command r.command
  let cols ← optionalExtent .cols r.cols
  let rows ← optionalExtent .rows r.rows
  let env ← requirePairs (r.env.getD [])
  let timeout ← optionalPositive .timeout r.timeout
  return {
    command
    pty := r.pty.getD false
    term := nonempty r.term
    dimensions := Dimensions.ofExtents rows cols
    env
    timeout }

def ControlFields.check (r : ControlFields) : Except Rejection ControlAction :=
  match r.action with
  | none => .error (.invalid .action .missing)
  | some name =>
      match ControlAction.ofName? name with
      | some action => .ok action
      | none => .error (.invalid .action (.unknownAction name))

namespace ClientMessage

/-- A payload as the record of a layout; a missing one is a record without fields. -/
def readPayload {ρ : Type} (layout : Layout ρ) (payload : Value) : Except Rejection ρ :=
  let payload := match payload with
    | .null => .object []
    | v => v
  match layout.read payload with
  | .ok r => .ok r
  | .error cause => .error (.malformed ⟨cause, none⟩)

def ofEnvelope (e : Envelope) : Except Rejection ClientMessage :=
  match e.kind with
  | "auth" => do return .auth (← (← readPayload AuthFields.layout e.payload).check)
  | "terminal" => do return .terminal (← (← readPayload TerminalFields.layout e.payload).check)
  | "resize" => do return .resize (← (← readPayload ResizeFields.layout e.payload).check)
  | "exec" => do return .exec (← (← readPayload ExecFields.layout e.payload).check)
  | "control" => do return .control (← (← readPayload ControlFields.layout e.payload).check)
  | "data" =>
      match e.payload with
      | .string s => .ok (.data (Text.Utf8.encode s.toList))
      | _ => .error (.invalid .data .notString)
  | kind => .error (.unknownKind kind)

def ofText (text : String) : Except Rejection ClientMessage :=
  match Envelope.ofText text with
  | .ok e => ofEnvelope e
  | .error fault => .error (.malformed fault)

end ClientMessage

end TerminalGateway

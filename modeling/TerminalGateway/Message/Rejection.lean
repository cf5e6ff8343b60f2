import TerminalGateway.Json.Fault

/-!
Why a message is not accepted.
-/

namespace TerminalGateway

inductive Field
  | username
  | host
  | port
  | cols
  | rows
  | command
  | env
  | timeout
  | action
  | data
  deriving DecidableEq, Repr

def Field.name : Field → String
  | .username => "username"
  | .host => "host"
  | .port => "port"
  | .cols => "cols"
  | .rows => "rows"
  | .command => "command"
  | .env => "env"
  | .timeout => "timeoutMs"
  | .action => "action"
  | .data => "data"

/-- A rule that a part of a message breaks. -/
inductive Violation
  | missing
  | blank
  | outside (low high : Nat)
  | notPositive
  | notString
  | valueNotString (key : String)
  | unknownAction (name : String)
  deriving DecidableEq, Repr

def Violation.text : Violation → String
  | .missing => "is required"
  | .blank => "must not be empty"
  | .outside low high =>
      "must be between " ++ Numeral.decimal low ++ " and " ++ Numeral.decimal high
  | .notPositive => "must be positive"
  | .notString => "must be a string"
  | .valueNotString key => "value of " ++ key ++ " must be a string"
  | .unknownAction name => "unsupported action '" ++ name ++ "'"

inductive Rejection
  | malformed (fault : Json.Fault)
  | unknownKind (kind : String)
  | invalid (field : Field) (violation : Violation)
  deriving DecidableEq, Repr

def Rejection.text : Rejection → String
  | .malformed fault => "Malformed message: " ++ fault.text
  | .unknownKind kind => "Unknown message type: " ++ kind
  | .invalid field violation => "Invalid " ++ field.name ++ ": " ++ violation.text

end TerminalGateway

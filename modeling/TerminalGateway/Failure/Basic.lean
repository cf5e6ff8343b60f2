import TerminalGateway.Numeral.Digits
import TerminalGateway.Text.Fold
import TerminalGateway.Text.Split

/-!
Failures of a connection and what they mean. The kind of a failure is read off its level and
code, and off the words of its message only where those say nothing; it decides what the user is
told and whether saved credentials are given up.
-/

namespace TerminalGateway

inductive FailureKind
  | authentication
  | network
  | timeout
  | protocol
  | unknown
  deriving DecidableEq, Repr

def FailureKind.name : FailureKind → String
  | .authentication => "authentication"
  | .network => "network"
  | .timeout => "timeout"
  | .protocol => "protocol"
  | .unknown => "unknown"

/-- Saved credentials are given up when their target could not be reached. -/
def FailureKind.clearsCredentials (k : FailureKind) : Bool := k = .network

/-- Where in the life of a connection a failure arose. -/
inductive FailureLevel
  | clientAuthentication
  | clientTimeout
  | clientSocket
  | stream
  deriving DecidableEq, Repr

def FailureLevel.name : FailureLevel → String
  | .clientAuthentication => "client-authentication"
  | .clientTimeout => "client-timeout"
  | .clientSocket => "client-socket"
  | .stream => "stream"

def authenticationWords : List String :=
  ["authentication failed", "password authentication failed", "key authentication failed",
    "permission denied", "publickey", "auth fail", "no authentication",
    "all configured authentication methods failed"]

def networkWords : List String :=
  ["connection refused", "network is unreachable", "no route to host", "host is down",
    "failed to lookup address", "name or service not known", "nodename nor servname",
    "temporary failure in name resolution"]

def timeoutWords : List String := ["timed out", "timeout"]

def networkCodes : List String :=
  ["ECONNREFUSED", "ENOTFOUND", "ENETUNREACH", "EHOSTUNREACH", "EAI_AGAIN"]

def timeoutCodes : List String := ["ETIMEDOUT", "ETIMEOUT"]

/-- Whether a message has one of the words, in letters of any case. -/
def mentions (words : List String) (message : String) : Bool :=
  let folded := Text.fold message.toList
  words.any fun w => Text.occursIn w.toList folded

def FailureKind.ofMessage (message : String) : FailureKind :=
  if mentions authenticationWords message then .authentication
  else if mentions networkWords message then .network
  else if mentions timeoutWords message then .timeout
  else .unknown

def FailureKind.ofCode? (code : String) : Option FailureKind :=
  if timeoutCodes.any (Text.sameWord code) then some .timeout
  else if networkCodes.any (Text.sameWord code) then some .network
  else none

/-- The kind that level and code tell without the message. -/
def FailureKind.ofSignals? (code : Option String) (level : Option FailureLevel) :
    Option FailureKind :=
  match level with
  | some .clientAuthentication => some .authentication
  | some .clientTimeout => some .timeout
  | _ =>
      match code.bind ofCode? with
      | some kind => some kind
      | none => if level = some .stream then some .protocol else none

def FailureKind.classify (code : Option String) (level : Option FailureLevel)
    (message : String) : FailureKind :=
  (ofSignals? code level).getD (ofMessage message)

structure Failure where
  code : Option String
  level : Option FailureLevel
  message : String
  deriving DecidableEq, Repr

namespace Failure

def kind (f : Failure) : FailureKind := .classify f.code f.level f.message

/-- The server does not accept the credentials, or left before it could. -/
def authentication (message : String) : Failure := ⟨none, some .clientAuthentication, message⟩

def timeout (message : String) : Failure := ⟨some "ETIMEDOUT", some .clientTimeout, message⟩

def stream (message : String) : Failure := ⟨none, some .stream, message⟩

def userMessage (f : Failure) (host : String) (port : Nat) : String :=
  match f.kind with
  | .authentication => "Authentication failed. Please check your username and credentials."
  | .network =>
      "Unable to reach " ++ host ++ ":" ++ Numeral.decimal port ++ ": " ++ f.message
  | .timeout => "Connection to " ++ host ++ ":" ++ Numeral.decimal port ++ " timed out"
  | .protocol => "SSH stream error: " ++ f.message
  | .unknown => "SSH error: " ++ f.message

end Failure

/-- What comes of an operation that may fail. -/
abbrev Outcome := Except Failure Unit

instance instDecidableEqExcept {ε α : Type} [DecidableEq ε] [DecidableEq α] :
    DecidableEq (Except ε α)
  | .error e, .error f => decidable_of_iff (e = f) ⟨congrArg _, Except.error.inj⟩
  | .ok a, .ok b => decidable_of_iff (a = b) ⟨congrArg _, Except.ok.inj⟩
  | .error _, .ok _ | .ok _, .error _ => isFalse (by simp)

end TerminalGateway

import TerminalGateway.Failure.Basic

/-!
Failures of input and output, as the operating system reports them.
-/

namespace TerminalGateway

inductive IoKind
  | notFound
  | permissionDenied
  | connectionRefused
  | connectionReset
  | hostUnreachable
  | networkUnreachable
  | connectionAborted
  | notConnected
  | addressInUse
  | addressNotAvailable
  | networkDown
  | brokenPipe
  | alreadyExists
  | wouldBlock
  | invalidInput
  | invalidData
  | timedOut
  | writeZero
  | interrupted
  | unsupported
  | unexpectedEnd
  | outOfMemory
  | other
  deriving DecidableEq, Repr

/-- The text of a failure of which nothing but the kind is known. -/
def IoKind.text : IoKind → String
  | .notFound => "entity not found"
  | .permissionDenied => "permission denied"
  | .connectionRefused => "connection refused"
  | .connectionReset => "connection reset"
  | .hostUnreachable => "host unreachable"
  | .networkUnreachable => "network unreachable"
  | .connectionAborted => "connection aborted"
  | .notConnected => "not connected"
  | .addressInUse => "address in use"
  | .addressNotAvailable => "address not available"
  | .networkDown => "network down"
  | .brokenPipe => "broken pipe"
  | .alreadyExists => "entity already exists"
  | .wouldBlock => "operation would block"
  | .invalidInput => "invalid input parameter"
  | .invalidData => "invalid data"
  | .timedOut => "timed out"
  | .writeZero => "write zero"
  | .interrupted => "operation interrupted"
  | .unsupported => "unsupported"
  | .unexpectedEnd => "unexpected end of file"
  | .outOfMemory => "out of memory"
  | .other => "other error"

structure IoError where
  kind : IoKind
  text : String
  deriving DecidableEq, Repr

namespace IoError

def ofKind (kind : IoKind) : IoError := ⟨kind, kind.text⟩

/-- What the system calls a failure with an error number, and its kind. -/
def meaning (number : Nat) : String × IoKind :=
  match number with
  | 1 => ("Operation not permitted", .permissionDenied)
  | 2 => ("No such file or directory", .notFound)
  | 4 => ("Interrupted system call", .interrupted)
  | 11 => ("Resource temporarily unavailable", .wouldBlock)
  | 12 => ("Cannot allocate memory", .outOfMemory)
  | 13 => ("Permission denied", .permissionDenied)
  | 22 => ("Invalid argument", .invalidInput)
  | 32 => ("Broken pipe", .brokenPipe)
  | 97 => ("Address family not supported by protocol", .other)
  | 98 => ("Address already in use", .addressInUse)
  | 99 => ("Cannot assign requested address", .addressNotAvailable)
  | 100 => ("Network is down", .networkDown)
  | 101 => ("Network is unreachable", .networkUnreachable)
  | 103 => ("Software caused connection abort", .connectionAborted)
  | 104 => ("Connection reset by peer", .connectionReset)
  | 107 => ("Transport endpoint is not connected", .notConnected)
  | 110 => ("Connection timed out", .timedOut)
  | 111 => ("Connection refused", .connectionRefused)
  | 112 => ("Host is down", .other)
  | 113 => ("No route to host", .hostUnreachable)
  | n => ("Unknown error " ++ Numeral.decimal n, .other)

def ofNumber (number : Nat) : IoError :=
  let (name, kind) := meaning number
  ⟨kind, name ++ " (os error " ++ Numeral.decimal number ++ ")"⟩

/-- Whether the other side left a connection that stood. -/
def isHangUp (e : IoError) : Bool :=
  e.kind = .unexpectedEnd || e.kind = .connectionReset || e.kind = .connectionAborted ||
    e.kind = .brokenPipe

/-- Whether a name could not be looked up, by the words of the text. -/
def isLookupFailure (e : IoError) : Bool :=
  mentions ["failed to lookup address", "name or service not known", "nodename nor servname",
    "no such host"] e.text

def code? (e : IoError) : Option String :=
  match e.kind with
  | .connectionRefused => some "ECONNREFUSED"
  | .timedOut => some "ETIMEDOUT"
  | .networkUnreachable => some "ENETUNREACH"
  | .hostUnreachable => some "EHOSTUNREACH"
  | .connectionReset => some "ECONNRESET"
  | .connectionAborted => some "ECONNABORTED"
  | .brokenPipe => some "EPIPE"
  | _ => if e.isLookupFailure then some "ENOTFOUND" else none

end IoError

def Failure.ofIo (e : IoError) : Failure := ⟨e.code?, some .clientSocket, e.text⟩

end TerminalGateway

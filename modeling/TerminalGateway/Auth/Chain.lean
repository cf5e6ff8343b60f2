import TerminalGateway.Auth.Dialogue
import TerminalGateway.Credentials

/-!
The order in which credentials are tried: a private key, the password, then a dialogue. What the
server does not offer is left out, and so is a dialogue that would only send a refused password
again.
-/

namespace TerminalGateway.Auth

inductive Strategy
  | key (key : PrivateKey)
  | password (password : String)
  | dialogue (password : Option String)
  deriving DecidableEq, Repr

namespace Strategy

def method : Strategy → Method
  | .key _ => .publicKey
  | .password _ => .password
  | .dialogue _ => .keyboardInteractive

/-- The method whose secret is sent again. -/
def resubmits? : Strategy → Option Method
  | .dialogue (some _) => some .password
  | _ => none

def isWorthwhile (s : Strategy) (offered refused : List Method) : Bool :=
  offered.contains s.method && !s.resubmits?.any refused.contains

def run (s : Strategy) (server : Server) (x : Exchange) : Except Lapse Verdict × Exchange :=
  match s with
  | .key k => x.ask server (.publicKey k)
  | .password p => x.ask server (.password p)
  | .dialogue p => x.dialogue server p

end Strategy

/-- The strategies for credentials. A key that cannot be read is none. -/
def strategies (readKey : KeyReader) (c : Credentials) : List Strategy :=
  let key := (c.privateKey.bind fun text => readKey text c.passphrase).map Strategy.key
  key.toList ++ (c.password.map Strategy.password).toList ++ [.dialogue c.password]

/-- Tries strategies until one succeeds. One that a broken connection cut short does not end the
attempt, but its error is told if no other one succeeds. -/
def tryAll (server : Server) (offered refused : List Method) (failure : Option TransportError) :
    List Strategy → Exchange → Except Lapse Bool × Exchange
  | [], x =>
      match failure with
      | some e => (.error (.broken e), x)
      | none => (.ok false, x)
  | s :: rest, x =>
      if !s.isWorthwhile offered refused then tryAll server offered refused failure rest x
      else
        match s.run server x with
        | (.ok .accepted, x) => (.ok true, x)
        | (.ok (.refused remaining _), x) =>
            tryAll server remaining (refused ++ [s.method]) failure rest x
        | (.error (.broken e), x) => tryAll server offered refused (some e) rest x
        | (.error .silent, x) => (.error .silent, x)

/-- Logs in with strategies. A request without any credentials comes first, which tells what the
server offers. -/
def authenticateWith (server : Server) (all : List Strategy) (x : Exchange) :
    Except Lapse Bool × Exchange :=
  match x.ask server .none with
  | (.ok .accepted, x) => (.ok true, x)
  | (.ok (.refused remaining _), x) => tryAll server remaining [] none all x
  | (.error lapse, x) => (.error lapse, x)

def authenticate (server : Server) (readKey : KeyReader) (c : Credentials) :
    Except Lapse Bool × Exchange :=
  authenticateWith server (strategies readKey c) {}

end TerminalGateway.Auth

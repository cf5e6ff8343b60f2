import TerminalGateway.Net.Subnet
import TerminalGateway.Permissions
import TerminalGateway.Text.Fold
import TerminalGateway.Text.Utf8

/-!
The settings of a gateway, each read from a variable of its own. A variable that is not set, or
whose octets are not text, leaves its setting at the standard value; so does a number that cannot
be read. Only the listen address and the networks have to be right.
-/

namespace TerminalGateway

/-- The variables of a process, with the octets of their values. -/
abbrev Variables := List (String × Octets)

namespace Variables

def text? (env : Variables) (name : String) : Option String :=
  ((env.find? fun v => v.1 = name).bind fun v => Text.Utf8.decode? v.2).map String.ofList

/-- A number of at most `limit`, with any blanks around it. -/
def number (env : Variables) (name : String) (limit standard : Nat) : Nat :=
  ((env.text? name).bind fun s => Numeral.read? limit (Text.trim s.toList)).getD standard

/-- A switch, which only `true` and `1` turn on. -/
def switch (env : Variables) (name : String) (standard : Bool) : Bool :=
  match env.text? name with
  | some s => Text.sameWord s "true" || s = "1"
  | none => standard

def nonempty? (env : Variables) (name : String) : Option String :=
  (env.text? name).filter (!·.isEmpty)

end Variables

inductive ConfigError
  | invalidSubnet (variableName : String) (value : String)
  | invalidListenAddress (value : String)
  deriving DecidableEq, Repr

def ConfigError.text : ConfigError → String
  | .invalidSubnet variableName value =>
      "Invalid subnet '" ++ value ++ "' in " ++ variableName ++ ": invalid IP address syntax"
  | .invalidListenAddress value => "Invalid listen address '" ++ value ++ "'"

/-- How to connect to servers. Times are in milliseconds. -/
structure SshSettings where
  defaultHost : Option String
  defaultPort : Nat
  term : String
  readyTimeout : Nat
  keepaliveInterval : Nat
  keepaliveCount : Nat
  compress : Bool
  allowedSubnets : List Net.Subnet
  envAllowlist : List String
  deriving DecidableEq, Repr

structure Config where
  listenAddress : Net.Address
  listenPort : Nat
  ssh : SshSettings
  permissions : Permissions
  /-- Whether a replayed password ends in a carriage return before the line feed. -/
  replayCrlf : Bool
  /-- How long a shutdown waits for sessions to end, in seconds. -/
  shutdownGrace : Nat
  deriving DecidableEq, Repr

namespace Config

def listenVariable : String := "WEBSSH_LISTEN_ADDR"

def subnetVariable : String := "SSH_ALLOWED_SUBNETS"

/-- The address to listen at, which is any if the variable is not set. -/
def listenAddressOf (env : Variables) : Except ConfigError Net.Address :=
  match env.text? listenVariable with
  | none => .ok (.v4 0)
  | some s =>
      match Net.Address.ofText? s.toList with
      | some a => .ok a
      | none => .error (.invalidListenAddress s)

/-- The networks of a list, or its first entry that is none. -/
def subnetsOf : List (List Char) → Except ConfigError (List Net.Subnet)
  | [] => .ok []
  | entry :: rest =>
      match Net.Subnet.ofText? entry with
      | none => .error (.invalidSubnet subnetVariable (String.ofList entry))
      | some net => (subnetsOf rest).map (net :: ·)

def ofVariables (env : Variables) : Except ConfigError Config := do
  let listenAddress ← listenAddressOf env
  let allowedSubnets ← subnetsOf (Net.entries ((env.text? subnetVariable).getD ""))
  return {
    listenAddress
    listenPort := env.number "WEBSSH_PORT" 0xffff 2222
    ssh := {
      defaultHost := env.nonempty? "SSH_HOST"
      defaultPort := env.number "SSH_PORT" 0xffff 22
      term := (env.nonempty? "SSH_TERM").getD "xterm-color"
      readyTimeout := env.number "SSH_READY_TIMEOUT_MS" 0xffffffffffffffff 20000
      keepaliveInterval := env.number "SSH_KEEPALIVE_INTERVAL_MS" 0xffffffffffffffff 120000
      keepaliveCount := env.number "SSH_KEEPALIVE_COUNT_MAX" 0xffffffffffffffff 10
      compress := env.switch "SSH_COMPRESSION" true
      allowedSubnets
      envAllowlist :=
        (Net.entries ((env.text? "SSH_ENV_ALLOWLIST").getD "")).map String.ofList }
    permissions := {
      autoLog := env.switch "WEBSSH_AUTO_LOG" false
      allowReplay := env.switch "WEBSSH_ALLOW_REPLAY" false
      allowReconnect := env.switch "WEBSSH_ALLOW_RECONNECT" true
      allowReauth := env.switch "WEBSSH_ALLOW_REAUTH" true }
    replayCrlf := env.switch "WEBSSH_REPLAY_CRLF" false
    shutdownGrace := env.number "WEBSSH_SHUTDOWN_GRACE_SECS" 0xffffffffffffffff 300 }

def lineEnding (c : Config) : String := if c.replayCrlf then "\r\n" else "\n"

def listenText (c : Config) : String := c.listenAddress.textWithPort c.listenPort

end Config

end TerminalGateway

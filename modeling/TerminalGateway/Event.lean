import TerminalGateway.Json.Writer
import TerminalGateway.Permissions
import TerminalGateway.Text.Utf8

/-!
What the gateway tells a client. Every event is a JSON object of two fields; only terminal output
may also travel as bare octets.
-/

namespace TerminalGateway

/-- One question of a server, and whether the answer may be shown while it is typed. -/
structure Prompt where
  prompt : String
  echo : Bool
  deriving DecidableEq, Repr

structure InteractivePrompt where
  name : String
  instructions : String
  prompts : List Prompt
  deriving DecidableEq, Repr

inductive ServerEvent
  | authResult (success : Bool) (message : Option String)
  | keyboardInteractive (prompt : InteractivePrompt)
  | reauth
  | permissions (permissions : Permissions)
  | getTerminal (value : Bool)
  | update (element value : String)
  | data (bytes : Octets)
  | sshError (message : String)
  | countdown (remaining : Nat)
  | execExit (code : Option Nat) (signal : Option String) (timedOut : Bool)
  deriving DecidableEq, Repr

open Json

def Prompt.json (p : Prompt) : Value :=
  .object [("prompt", .string p.prompt), ("echo", .bool p.echo)]

def Permissions.json (p : Permissions) : Value :=
  .object [("autoLog", .bool p.autoLog), ("allowReplay", .bool p.allowReplay),
    ("allowReconnect", .bool p.allowReconnect), ("allowReauth", .bool p.allowReauth)]

namespace ServerEvent

def footer (value : String) : ServerEvent := .update "footer" value

/-- A field that is left out when there is nothing to put into it. -/
def optionalField (name : String) (v : Option Value) : List (String × Value) :=
  (v.map fun v => (name, v)).toList

def parts : ServerEvent → String × Value
  | .authResult success message =>
      ("authentication", .object ([("action", .string "auth_result"), ("success", .bool success)]
        ++ optionalField "message" (message.map .string)))
  | .keyboardInteractive p =>
      ("authentication", .object [("action", .string "keyboard-interactive"),
        ("name", .string p.name), ("instructions", .string p.instructions),
        ("prompts", .array (p.prompts.map Prompt.json))])
  | .reauth => ("authentication", .object [("action", .string "reauth")])
  | .permissions p => ("permissions", p.json)
  | .getTerminal value => ("getTerminal", .bool value)
  | .update element value =>
      ("updateUI", .object [("element", .string element), ("value", .string value)])
  | .data bytes => ("data", .string (String.ofList (Text.Utf8.decodeLossy bytes)))
  | .sshError message => ("ssherror", .string message)
  | .countdown remaining => ("shutdownCountdownUpdate", .number (.integer remaining))
  | .execExit code signal timedOut =>
      ("execExit", .object
        (optionalField "code" (code.map fun n => .number (.integer n))
          ++ optionalField "signal" (signal.map .string)
          ++ optionalField "timedOut" (if timedOut then some (.bool true) else none)))

def json (e : ServerEvent) : Value :=
  .object [("event", .string e.parts.1), ("data", e.parts.2)]

def text (e : ServerEvent) : String := e.json.text

end ServerEvent

end TerminalGateway

import TerminalGateway.Config
import TerminalGateway.Credentials
import TerminalGateway.Http.Query
import TerminalGateway.Text.Base64

/-!
Credentials that come with the request for a session. They are kept for authentication requests
without a secret.
-/

namespace TerminalGateway.Http

/-- A user and a password, as `Basic` followed by the base64 form of `user:password`. The scheme
may be written in letters of any case. -/
def basicLogin? (authorization : String) : Option (String × String) := do
  let (scheme, rest) ← Text.cut? ' ' authorization.toList
  if !Text.sameWord (String.ofList scheme) "basic" then none
  else
    let bytes ← Text.Base64.decode? (rest.dropWhile (· = ' '))
    let (user, password) ← Text.cut? ':' (← Text.Utf8.decode? bytes)
    return (String.ofList user, String.ofList password)

/-- The credentials of a request: the login of its first authorization, for the target of the
query or else the one that the operator named. -/
def requestCredentials? (authorizations : List String) (query : SessionQuery)
    (settings : SshSettings) : Option Credentials := do
  let (username, password) ← basicLogin? (← authorizations.head?)
  let host ← (query.host.filter (!·.isEmpty)).orElse fun _ => settings.defaultHost
  return {
    host := Credentials.unbracket host
    port := (query.port.filter (· ≠ 0)).getD settings.defaultPort
    username
    password := some password
    privateKey := none
    passphrase := none }

end TerminalGateway.Http

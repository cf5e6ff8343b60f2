import TerminalGateway.Auth.Chain
import TerminalGateway.Auth.Dialogue
import TerminalGateway.Auth.Exchange
import TerminalGateway.Config
import TerminalGateway.Connection.Basic
import TerminalGateway.Connection.Peer
import TerminalGateway.Connection.Relay
import TerminalGateway.Credentials
import TerminalGateway.Drain.Board
import TerminalGateway.Drain.Broadcast
import TerminalGateway.Drain.Coordinator
import TerminalGateway.Drain.Schedule
import TerminalGateway.Drain.Tasks
import TerminalGateway.Environment
import TerminalGateway.Event
import TerminalGateway.Failure.Basic
import TerminalGateway.Failure.Io
import TerminalGateway.Failure.Transport
import TerminalGateway.Http.Arrival
import TerminalGateway.Http.Authorization
import TerminalGateway.Http.Frame
import TerminalGateway.Http.Query
import TerminalGateway.Http.Route
import TerminalGateway.Http.Socket
import TerminalGateway.Http.Target
import TerminalGateway.Json.Cursor
import TerminalGateway.Json.Fault
import TerminalGateway.Json.Figure
import TerminalGateway.Json.Layout
import TerminalGateway.Json.Quotation
import TerminalGateway.Json.Reader
import TerminalGateway.Json.Value
import TerminalGateway.Json.Writer
import TerminalGateway.Message.Basic
import TerminalGateway.Message.Decode
import TerminalGateway.Message.Envelope
import TerminalGateway.Message.Rejection
import TerminalGateway.Net.Address
import TerminalGateway.Net.Subnet
import TerminalGateway.Numeral.Binary64
import TerminalGateway.Numeral.Digits
import TerminalGateway.Numeral.Duration
import TerminalGateway.Permissions
import TerminalGateway.Service
import TerminalGateway.Session.Basic
import TerminalGateway.Session.Handlers
import TerminalGateway.Session.Remote
import TerminalGateway.Session.Scripted
import TerminalGateway.Session.Sources
import TerminalGateway.Session.Step
import TerminalGateway.Session.Waiting
import TerminalGateway.Text.Base64
import TerminalGateway.Text.Blank
import TerminalGateway.Text.Fold
import TerminalGateway.Text.Quoted
import TerminalGateway.Text.Shown
import TerminalGateway.Text.Split
import TerminalGateway.Text.Utf8
import TerminalGateway.Proofs.Auth.Acceptance
import TerminalGateway.Proofs.Session.Answers
import TerminalGateway.Proofs.Session.Moves
import TerminalGateway.Proofs.Session.Coherence
import TerminalGateway.Proofs.Session.Turns
import TerminalGateway.Proofs.Session.Redaction
import TerminalGateway.Proofs.Session.Secrecy
import TerminalGateway.Proofs.Session.Traffic
import TerminalGateway.Proofs.Session.Vetting
import TerminalGateway.Proofs.Session.Line
import TerminalGateway.Proofs.Session.Discipline
import TerminalGateway.Proofs.Credentials
import TerminalGateway.Proofs.Net.Literal
import TerminalGateway.Proofs.Session.Target
import TerminalGateway.Proofs.Http.Delivery
import TerminalGateway.Proofs.Session.Completeness
import TerminalGateway.Proofs.Session.Troubles
import TerminalGateway.Proofs.Drain.Rest
import TerminalGateway.Proofs.Session.Sources
import TerminalGateway.Proofs.Session.Termination
import TerminalGateway.Proofs.Session.Flow
import TerminalGateway.Proofs.Session.Output
import TerminalGateway.Proofs.Session.Exits
import TerminalGateway.Proofs.Auth.Attempts
import TerminalGateway.Proofs.Session.Operations
import TerminalGateway.Proofs.Session.Typing
import TerminalGateway.Proofs.Session.Waiting
import TerminalGateway.Proofs.Connection.Agreement
import TerminalGateway.Proofs.Auth.Refusals
import TerminalGateway.Proofs.Json.Fields
import TerminalGateway.Proofs.Json.Layout
import TerminalGateway.Proofs.Message.Records
import TerminalGateway.Proofs.Message.Rules
import TerminalGateway.Proofs.Message.Secrets
import TerminalGateway.Proofs.Json.Spelling
import TerminalGateway.Proofs.Json.Written
import TerminalGateway.Proofs.Message.RoundTrip
import TerminalGateway.Proofs.Drain.Signals
import TerminalGateway.Proofs.Drain.Departures
import TerminalGateway.Proofs.Connection.Channels
import TerminalGateway.Process
import TerminalGateway.Proofs.Process.Places
import TerminalGateway.Proofs.Process.Service
import TerminalGateway.Proofs.Drain.Countdown
import TerminalGateway.Proofs.Session.Kept
import TerminalGateway.Proofs.Text.Utf8
import TerminalGateway.Proofs.Text.Split
import TerminalGateway.Proofs.Restriction
import TerminalGateway.Proofs.Json.Document
import TerminalGateway.Proofs.Message.Events
import TerminalGateway.Proofs.Connection.Transcript
import TerminalGateway.Proofs.Connection.Calls
import TerminalGateway.Proofs.Session.Past
import TerminalGateway.Proofs.Session.Rejected
import TerminalGateway.Proofs.Session.Shown
import TerminalGateway.Proofs.Drain.Reception
import TerminalGateway.Proofs.Process.Hearing
import TerminalGateway.Proofs.Process.Overtaken
import TerminalGateway.Proofs.Auth.Rounds
import TerminalGateway.Proofs.Failure.Kinds
import TerminalGateway.Proofs.Message.Declared
import TerminalGateway.Proofs.Message.Rephrased
import TerminalGateway.Proofs.Environment
import TerminalGateway.Proofs.Numeral.Digits
import TerminalGateway.Proofs.Net.Spelling
import TerminalGateway.Proofs.Net.Printed
import TerminalGateway.Proofs.Net.Entries
import TerminalGateway.Proofs.Net.Membership
import TerminalGateway.Proofs.Settings
import TerminalGateway.Proofs.Session.Label
import TerminalGateway.Proofs.Process.Targets

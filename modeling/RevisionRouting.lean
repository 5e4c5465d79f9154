import RevisionRouting.Command.Arguments
import RevisionRouting.Command.Execution
import RevisionRouting.Command.Files
import RevisionRouting.Decimal.Shortest
import RevisionRouting.Decision.Basic
import RevisionRouting.Decision.Reader
import RevisionRouting.Json.Printer
import RevisionRouting.Json.Reader.Basic
import RevisionRouting.Json.Reader.Number
import RevisionRouting.Json.Reader.Record
import RevisionRouting.Json.Reader.Text
import RevisionRouting.Json.Reader.Typed
import RevisionRouting.Json.Reader.Value
import RevisionRouting.Json.Value
import RevisionRouting.Main
import RevisionRouting.Proofs.Command.Agreement
import RevisionRouting.Proofs.Command.Check
import RevisionRouting.Proofs.Command.Stages
import RevisionRouting.Proofs.Decision.Channels
import RevisionRouting.Proofs.Decision.Expiry
import RevisionRouting.Proofs.Decision.RoundTrip
import RevisionRouting.Proofs.Json.Assembly
import RevisionRouting.Proofs.Json.Brackets
import RevisionRouting.Proofs.Json.Escapes
import RevisionRouting.Proofs.Json.Leniency
import RevisionRouting.Proofs.Json.Locality
import RevisionRouting.Proofs.Json.Loops
import RevisionRouting.Proofs.Json.Members
import RevisionRouting.Proofs.Json.Nesting
import RevisionRouting.Proofs.Json.OneLine
import RevisionRouting.Proofs.Json.OwnTexts
import RevisionRouting.Proofs.Json.Progress
import RevisionRouting.Proofs.Json.RecordTexts
import RevisionRouting.Proofs.Json.Records
import RevisionRouting.Proofs.Json.RoundTrip
import RevisionRouting.Proofs.Json.Rules
import RevisionRouting.Proofs.Json.WellFormed
import RevisionRouting.Proofs.Json.Zero
import RevisionRouting.Proofs.Report.Levels
import RevisionRouting.Proofs.Report.Record
import RevisionRouting.Proofs.Report.Severity
import RevisionRouting.Proofs.Report.Watchers
import RevisionRouting.Proofs.Resurrection.Policy
import RevisionRouting.Proofs.Revision.Format
import RevisionRouting.Proofs.Revision.RoundTrip
import RevisionRouting.Proofs.Revision.Texts
import RevisionRouting.Proofs.Routing.Padding
import RevisionRouting.Proofs.Routing.Persistence
import RevisionRouting.Proofs.Routing.Staleness
import RevisionRouting.Proofs.Session.History
import RevisionRouting.Proofs.Settings.RoundTrip
import RevisionRouting.Proofs.Settings.Validation
import RevisionRouting.Proofs.Stream.Accounts
import RevisionRouting.Proofs.Stream.Failures
import RevisionRouting.Proofs.Stream.Framing
import RevisionRouting.Proofs.Stream.Lines
import RevisionRouting.Proofs.Stream.Noninterference
import RevisionRouting.Proofs.Stream.Replay
import RevisionRouting.Proofs.Stream.Responses
import RevisionRouting.Proofs.Text.ByteOrder
import RevisionRouting.Proofs.Text.Trim
import RevisionRouting.Proofs.Text.Utf8
import RevisionRouting.Proofs.Time.Reading
import RevisionRouting.Report.Basic
import RevisionRouting.Report.Severity
import RevisionRouting.Report.Watchers
import RevisionRouting.Response
import RevisionRouting.Resurrection.Policy
import RevisionRouting.Revision
import RevisionRouting.Session
import RevisionRouting.Settings
import RevisionRouting.Stream.Run
import RevisionRouting.Stream.Watched
import RevisionRouting.Text.Character
import RevisionRouting.Text.Quoted
import RevisionRouting.Text.Utf8
import RevisionRouting.Time.Rfc3339
import RevisionRouting.Time.Stamp

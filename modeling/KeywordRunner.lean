import KeywordRunner.CommandLine.Options
import KeywordRunner.CommandLine.Program
import KeywordRunner.Config.Settings
import KeywordRunner.Config.Storage
import KeywordRunner.Json.Printer
import KeywordRunner.Json.Reader
import KeywordRunner.Json.Record
import KeywordRunner.Json.Value
import KeywordRunner.Main
import KeywordRunner.Net.Endpoint
import KeywordRunner.Net.SocketAddress
import KeywordRunner.Numeral.Binary64
import KeywordRunner.Numeral.Digits
import KeywordRunner.Numeral.Layout
import KeywordRunner.Numeral.Literal
import KeywordRunner.Numeral.Nearest
import KeywordRunner.Numeral.Shortest
import KeywordRunner.Numeral.Signed
import KeywordRunner.Proofs.Json.Records
import KeywordRunner.Proofs.Json.Scalars
import KeywordRunner.Proofs.Json.Values
import KeywordRunner.Proofs.Script.Loading
import KeywordRunner.Proofs.Script.Scope
import KeywordRunner.Proofs.Script.Trace
import KeywordRunner.Proofs.Script.Visits
import KeywordRunner.Proofs.Server.Conversation
import KeywordRunner.Proofs.Server.Keeping
import KeywordRunner.Proofs.Server.Ownership
import KeywordRunner.Proofs.Server.Service
import KeywordRunner.Proofs.Server.Steps
import KeywordRunner.Proofs.Session.Correlation
import KeywordRunner.Proofs.Session.Ids
import KeywordRunner.Proofs.Session.Steps
import KeywordRunner.Proofs.Wire.Escape
import KeywordRunner.Proofs.Wire.RoundTrip
import KeywordRunner.Proofs.Wire.Stream
import KeywordRunner.Reflection.Call
import KeywordRunner.Reflection.Library
import KeywordRunner.Remote.Argument
import KeywordRunner.Remote.Value
import KeywordRunner.Script.Batch
import KeywordRunner.Script.Event
import KeywordRunner.Script.Execution
import KeywordRunner.Script.Fault
import KeywordRunner.Script.Interpreter
import KeywordRunner.Script.Keyword
import KeywordRunner.Script.Line
import KeywordRunner.Script.LineNumber
import KeywordRunner.Script.Registry
import KeywordRunner.Script.Token
import KeywordRunner.Script.Variables
import KeywordRunner.Server.Connection
import KeywordRunner.Server.Directory
import KeywordRunner.Server.Phase
import KeywordRunner.Server.Traffic
import KeywordRunner.Session.Basic
import KeywordRunner.Session.Call
import KeywordRunner.Session.Callers
import KeywordRunner.Session.Fault
import KeywordRunner.Session.Port
import KeywordRunner.Table
import KeywordRunner.Text.Blank
import KeywordRunner.Text.Extending
import KeywordRunner.Text.Hex
import KeywordRunner.Text.Lines
import KeywordRunner.Text.Printable
import KeywordRunner.Text.Quoted
import KeywordRunner.Text.Utf8
import KeywordRunner.Time.Duration
import KeywordRunner.Wire.Escape
import KeywordRunner.Wire.Frame
import KeywordRunner.Wire.FrameBuffer
import KeywordRunner.Wire.Message
import KeywordRunner.World.Disk
import KeywordRunner.World.Scene
import KeywordRunner.Proofs.Wire.Remnants
import KeywordRunner.Proofs.Server.Answers
import KeywordRunner.Proofs.Server.Outboxes
import KeywordRunner.Proofs.Server.Handshake
import KeywordRunner.Proofs.Server.Shutdown
import KeywordRunner.Proofs.Text.Lines
import KeywordRunner.Proofs.Script.Pieces
import KeywordRunner.Proofs.Script.Admission
import KeywordRunner.Proofs.Script.Batches
import KeywordRunner.Proofs.Script.Agreement
import KeywordRunner.Proofs.Script.Isolation
import KeywordRunner.Proofs.Script.Bindings
import KeywordRunner.Proofs.Remote.Arguments
import KeywordRunner.Proofs.Session.Calls
import KeywordRunner.Proofs.Reflection.Keywords
import KeywordRunner.Proofs.Session.Postings
import KeywordRunner.Proofs.Session.Pairing
import KeywordRunner.Proofs.Session.Replies
import KeywordRunner.Proofs.Server.Waits
import KeywordRunner.Proofs.Server.Registrations
import KeywordRunner.Proofs.Script.Grammar
import KeywordRunner.Proofs.Script.Spelling
import KeywordRunner.Proofs.Script.Stores
import KeywordRunner.Proofs.Wire.Escaped
import KeywordRunner.Proofs.Numeral.Canonical
import KeywordRunner.Proofs.Remote.Tags
import KeywordRunner.Proofs.Numeral.Rounding
import KeywordRunner.Proofs.Remote.Rehydration
import KeywordRunner.Proofs.Remote.Attributes
import KeywordRunner.Proofs.Numeral.Exact
import KeywordRunner.Proofs.Remote.Handles
import KeywordRunner.Proofs.Script.Definitions
import KeywordRunner.Proofs.Json.Grammar
import KeywordRunner.Proofs.Json.Documents
import KeywordRunner.Proofs.Config.Documents
import KeywordRunner.Proofs.Script.LineEndings
import KeywordRunner.Proofs.Server.Reading

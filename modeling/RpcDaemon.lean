import RpcDaemon.Access.AllowList
import RpcDaemon.Access.Credentials
import RpcDaemon.Chain.Genesis
import RpcDaemon.Chain.Profile
import RpcDaemon.Chain.Registry
import RpcDaemon.Chain.Seed
import RpcDaemon.Chain.Sha256
import RpcDaemon.Chain.Target
import RpcDaemon.Cli.Convert
import RpcDaemon.Cli.Failure
import RpcDaemon.Cli.Options
import RpcDaemon.Cli.Startup
import RpcDaemon.Command.Basic
import RpcDaemon.Command.Builtin
import RpcDaemon.Command.Dispatch
import RpcDaemon.Command.Listing
import RpcDaemon.Command.Locks
import RpcDaemon.Decimal.Binary64
import RpcDaemon.Decimal.Reading
import RpcDaemon.Decimal.Shortest
import RpcDaemon.Files.Path
import RpcDaemon.Files.Tree
import RpcDaemon.Http.Client
import RpcDaemon.Http.Date
import RpcDaemon.Http.Reply
import RpcDaemon.Http.Request
import RpcDaemon.Http.Status
import RpcDaemon.Json.Basic
import RpcDaemon.Json.Document
import RpcDaemon.Json.Reader
import RpcDaemon.Json.Record
import RpcDaemon.Json.Value
import RpcDaemon.Logging.Filter
import RpcDaemon.Main
import RpcDaemon.Net.Address
import RpcDaemon.Net.Reading
import RpcDaemon.Node
import RpcDaemon.Proofs.Access.AllowList
import RpcDaemon.Proofs.Access.Authentication
import RpcDaemon.Proofs.Access.Credentials
import RpcDaemon.Proofs.Access.NormalForm
import RpcDaemon.Proofs.Access.Patterns
import RpcDaemon.Proofs.Chain.Compact
import RpcDaemon.Proofs.Chain.Limit
import RpcDaemon.Proofs.Chain.Selection
import RpcDaemon.Proofs.Chain.Target
import RpcDaemon.Proofs.Cli.Convert
import RpcDaemon.Proofs.Cli.Startup
import RpcDaemon.Proofs.Command.Answer
import RpcDaemon.Proofs.Command.Effect
import RpcDaemon.Proofs.Command.Extension
import RpcDaemon.Proofs.Command.Failure
import RpcDaemon.Proofs.Command.Invocation
import RpcDaemon.Proofs.Command.Listing
import RpcDaemon.Proofs.Command.Policy
import RpcDaemon.Proofs.Decimal.FixedPoint
import RpcDaemon.Proofs.Decimal.Rounding
import RpcDaemon.Proofs.Files.Tree
import RpcDaemon.Proofs.Http.Accounting
import RpcDaemon.Proofs.Http.Announcement
import RpcDaemon.Proofs.Http.Calendar
import RpcDaemon.Proofs.Http.Date
import RpcDaemon.Proofs.Http.Framing
import RpcDaemon.Proofs.Http.Head
import RpcDaemon.Proofs.Http.HeaderLines
import RpcDaemon.Proofs.Http.Lines
import RpcDaemon.Proofs.Http.Receiving
import RpcDaemon.Proofs.Http.Replies
import RpcDaemon.Proofs.Http.Stream
import RpcDaemon.Proofs.Http.Truncation
import RpcDaemon.Proofs.Json.Denoted
import RpcDaemon.Proofs.Json.Document
import RpcDaemon.Proofs.Json.Layout
import RpcDaemon.Proofs.Json.Members
import RpcDaemon.Proofs.Json.Printed
import RpcDaemon.Proofs.Json.Record
import RpcDaemon.Proofs.Json.RoundTrip
import RpcDaemon.Proofs.Json.Scanning
import RpcDaemon.Proofs.Net.Address
import RpcDaemon.Proofs.Net.Text
import RpcDaemon.Proofs.Rpc.Amount
import RpcDaemon.Proofs.Rpc.Envelope
import RpcDaemon.Proofs.Rpc.Failure
import RpcDaemon.Proofs.Rpc.RoundTrip
import RpcDaemon.Proofs.Runs
import RpcDaemon.Proofs.Service.Admission
import RpcDaemon.Proofs.Service.Batch
import RpcDaemon.Proofs.Service.Body
import RpcDaemon.Proofs.Service.Dialogue
import RpcDaemon.Proofs.Service.Listening
import RpcDaemon.Proofs.Service.Pipeline
import RpcDaemon.Proofs.Service.Session
import RpcDaemon.Proofs.Service.Shutdown
import RpcDaemon.Proofs.Service.Tip
import RpcDaemon.Proofs.Service.Undisturbed
import RpcDaemon.Proofs.Settings.ConfFile
import RpcDaemon.Proofs.Settings.Datum
import RpcDaemon.Proofs.Settings.Fields
import RpcDaemon.Proofs.Settings.Overrides
import RpcDaemon.Proofs.Settings.RoundTrip
import RpcDaemon.Proofs.Text.Base64
import RpcDaemon.Proofs.Text.Blank
import RpcDaemon.Proofs.Text.Canonical
import RpcDaemon.Proofs.Text.Glob
import RpcDaemon.Proofs.Text.Numeral
import RpcDaemon.Proofs.Text.Search
import RpcDaemon.Proofs.Text.Separator
import RpcDaemon.Proofs.Text.Utf8
import RpcDaemon.Proofs.Timer.Advance
import RpcDaemon.Proofs.Timer.Debounce
import RpcDaemon.Proofs.Timer.Interleaving
import RpcDaemon.Proofs.Timer.Table
import RpcDaemon.Proofs.Timer.Tasks
import RpcDaemon.Proofs.Tls.Ciphers
import RpcDaemon.Proofs.Tls.Record
import RpcDaemon.Proofs.Toml.Document
import RpcDaemon.Proofs.Toml.Quoted
import RpcDaemon.Proofs.Toml.Scalar
import RpcDaemon.Proofs.Toml.Statement
import RpcDaemon.Proofs.Toml.Value
import RpcDaemon.Rpc.Amount
import RpcDaemon.Rpc.Error
import RpcDaemon.Rpc.ParamType
import RpcDaemon.Rpc.Request
import RpcDaemon.Rpc.Response
import RpcDaemon.Service.Body
import RpcDaemon.Service.Connection
import RpcDaemon.Service.Listening
import RpcDaemon.Service.Server
import RpcDaemon.Service.Watch
import RpcDaemon.Settings.Basic
import RpcDaemon.Settings.Check
import RpcDaemon.Settings.ConfFile
import RpcDaemon.Settings.Datum
import RpcDaemon.Settings.Error
import RpcDaemon.Settings.Load
import RpcDaemon.Settings.Overrides
import RpcDaemon.Settings.Password
import RpcDaemon.Settings.Reading
import RpcDaemon.Settings.Writing
import RpcDaemon.Text.Base64
import RpcDaemon.Text.Blank
import RpcDaemon.Text.Described
import RpcDaemon.Text.Glob
import RpcDaemon.Text.Hex
import RpcDaemon.Text.Numeral
import RpcDaemon.Text.Utf8
import RpcDaemon.Text.Visible
import RpcDaemon.Timer.Scheduler
import RpcDaemon.Timer.Table
import RpcDaemon.Tls.Acceptor
import RpcDaemon.Tls.Ciphers
import RpcDaemon.Tls.Mode
import RpcDaemon.Tls.Pem
import RpcDaemon.Tls.PrivateKey
import RpcDaemon.Tls.Record
import RpcDaemon.Toml.Basic
import RpcDaemon.Toml.Document
import RpcDaemon.Toml.Quoted
import RpcDaemon.Toml.Reader
import RpcDaemon.Toml.Scalar
import RpcDaemon.Toml.Tree

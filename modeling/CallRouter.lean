import CallRouter.Call
import CallRouter.Config.Basic
import CallRouter.Config.Environment
import CallRouter.Config.File
import CallRouter.Dealer.Answers
import CallRouter.Dealer.Basic
import CallRouter.Dealer.Dispatch
import CallRouter.Dealer.Endings
import CallRouter.Dealer.Handling
import CallRouter.Dealer.Procedures
import CallRouter.ErrorUri
import CallRouter.Failure
import CallRouter.Identifier
import CallRouter.Json.Basic
import CallRouter.Json.Printer
import CallRouter.Json.Reader
import CallRouter.Keyed
import CallRouter.Main
import CallRouter.Message.Kind
import CallRouter.Message.Registry
import CallRouter.Message.Role
import CallRouter.Message.Shape
import CallRouter.Message.Standard
import CallRouter.Metrics.Basic
import CallRouter.Metrics.Report
import CallRouter.Network.Address
import CallRouter.Number.Binary64
import CallRouter.Number.Decimal
import CallRouter.Options
import CallRouter.Pattern
import CallRouter.Policy
import CallRouter.Proofs.Call.Cancellation
import CallRouter.Proofs.Call.Election
import CallRouter.Proofs.Call.Invariants
import CallRouter.Proofs.Call.Notices
import CallRouter.Proofs.Call.Relaying
import CallRouter.Proofs.Call.Relays
import CallRouter.Proofs.Call.Replies
import CallRouter.Proofs.Call.Turn
import CallRouter.Proofs.Dealer.Accounts
import CallRouter.Proofs.Dealer.Attempts
import CallRouter.Proofs.Dealer.Awaiting
import CallRouter.Proofs.Dealer.CancelModes
import CallRouter.Proofs.Dealer.Cancelable
import CallRouter.Proofs.Dealer.Cancellations
import CallRouter.Proofs.Dealer.Closing
import CallRouter.Proofs.Dealer.Conservation
import CallRouter.Proofs.Dealer.Counting
import CallRouter.Proofs.Dealer.Directory
import CallRouter.Proofs.Dealer.Dispatch
import CallRouter.Proofs.Dealer.Draws
import CallRouter.Proofs.Dealer.Elsewhere
import CallRouter.Proofs.Dealer.Failing
import CallRouter.Proofs.Dealer.Forwarding
import CallRouter.Proofs.Dealer.Growth
import CallRouter.Proofs.Dealer.Informed
import CallRouter.Proofs.Dealer.Inquiry
import CallRouter.Proofs.Dealer.Isolation
import CallRouter.Proofs.Dealer.Leftovers
import CallRouter.Proofs.Dealer.Linked
import CallRouter.Proofs.Dealer.Moves
import CallRouter.Proofs.Dealer.NoneLost
import CallRouter.Proofs.Dealer.Peopled
import CallRouter.Proofs.Dealer.Procedures
import CallRouter.Proofs.Dealer.Protocol
import CallRouter.Proofs.Dealer.Quoting
import CallRouter.Proofs.Dealer.Reach
import CallRouter.Proofs.Dealer.Reaching
import CallRouter.Proofs.Dealer.Refusals
import CallRouter.Proofs.Dealer.Relaying
import CallRouter.Proofs.Dealer.Replies
import CallRouter.Proofs.Dealer.Reserved
import CallRouter.Proofs.Dealer.Resolution
import CallRouter.Proofs.Dealer.Resting
import CallRouter.Proofs.Dealer.Run
import CallRouter.Proofs.Dealer.Silence
import CallRouter.Proofs.Dealer.Sweep
import CallRouter.Proofs.Dealer.Teardown
import CallRouter.Proofs.Dealer.Told
import CallRouter.Proofs.Dealer.Turns
import CallRouter.Proofs.Dealer.Undisturbed
import CallRouter.Proofs.Identifier
import CallRouter.Proofs.Identifier.Cycle
import CallRouter.Proofs.Json.Dict
import CallRouter.Proofs.Json.Reprint
import CallRouter.Proofs.Json.RoundTrip
import CallRouter.Proofs.Json.Scalar
import CallRouter.Proofs.Json.Size
import CallRouter.Proofs.Ledger
import CallRouter.Proofs.Message.Registry
import CallRouter.Proofs.Message.Size
import CallRouter.Proofs.Message.Valid
import CallRouter.Proofs.Message.Views
import CallRouter.Proofs.Number.Length
import CallRouter.Proofs.Number.Whole
import CallRouter.Proofs.Pattern
import CallRouter.Proofs.Registration.Acts
import CallRouter.Proofs.Registration.Allocation
import CallRouter.Proofs.Registration.Callable
import CallRouter.Proofs.Registration.Chronicle
import CallRouter.Proofs.Registration.Consistent
import CallRouter.Proofs.Registration.Fairness
import CallRouter.Proofs.Registration.Inquiry
import CallRouter.Proofs.Registration.Listing
import CallRouter.Proofs.Registration.Lookup
import CallRouter.Proofs.Registration.Narrowest
import CallRouter.Proofs.Registration.Numbered
import CallRouter.Proofs.Registration.Outline
import CallRouter.Proofs.Registration.Overloads
import CallRouter.Proofs.Registration.Ownership
import CallRouter.Proofs.Registration.Published
import CallRouter.Proofs.Registration.Reachable
import CallRouter.Proofs.Registration.Reserved
import CallRouter.Proofs.Registration.Rotation
import CallRouter.Proofs.Registration.Seniority
import CallRouter.Proofs.Registration.Staleness
import CallRouter.Proofs.Registration.WellFormed
import CallRouter.Proofs.Router.Attendance
import CallRouter.Proofs.Router.Ending
import CallRouter.Proofs.Router.Gauges
import CallRouter.Proofs.Router.LifeCycle
import CallRouter.Proofs.Router.Reactions
import CallRouter.Proofs.Router.Readings
import CallRouter.Proofs.Router.Recovery
import CallRouter.Proofs.Router.Roles
import CallRouter.Proofs.Router.Run
import CallRouter.Proofs.Router.Sending
import CallRouter.Proofs.Server.Connection
import CallRouter.Proofs.Server.Writing
import CallRouter.Proofs.Statistics
import CallRouter.Proofs.Statistics.Missed
import CallRouter.Proofs.Uri
import CallRouter.Proofs.Wire.Corruption
import CallRouter.Proofs.Wire.Cutting
import CallRouter.Proofs.Wire.Frame
import CallRouter.Proofs.Wire.Line
import CallRouter.Proofs.Wire.Overlong
import CallRouter.Proofs.Wire.Size
import CallRouter.Proofs.Wire.Stream
import CallRouter.ProtocolError
import CallRouter.Refusal
import CallRouter.Registration.Directory
import CallRouter.Registration.Event
import CallRouter.Registration.Meta
import CallRouter.Router.Basic
import CallRouter.Router.Handling
import CallRouter.Router.Reception
import CallRouter.Rpc
import CallRouter.Server
import CallRouter.Session
import CallRouter.Statistics
import CallRouter.Text.Blank
import CallRouter.Text.Lowercase
import CallRouter.Text.Numeral
import CallRouter.Time
import CallRouter.Uri
import CallRouter.Wire.Crc32c
import CallRouter.Wire.Frame
import CallRouter.Wire.Mode
import CallRouter.Wire.Reader
import CallRouter.Wire.Runs
import CallRouter.Yaml.Character
import CallRouter.Yaml.Cursor
import CallRouter.Yaml.Document
import CallRouter.Yaml.Layout
import CallRouter.Yaml.Node
import CallRouter.Yaml.Scalar.Block
import CallRouter.Yaml.Scalar.Gap
import CallRouter.Yaml.Scalar.Plain
import CallRouter.Yaml.Scalar.Quoted
import CallRouter.Yaml.Scalar.Value
import CallRouter.Yaml.Tag
import CallRouter.Yaml.Token

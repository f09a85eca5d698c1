import Autocomplete.Text.Classes
import Autocomplete.Text.Columns
import Autocomplete.Text.Encoding
import Autocomplete.Text.Folding
import Autocomplete.Server
import Autocomplete.Json.Decode
import Autocomplete.Json.Reader
import Autocomplete.SignatureHelp
import Autocomplete.Match
import Autocomplete.Boundary
import Autocomplete.Fuzzy
import Autocomplete.Snippet
import Autocomplete.Latency
import Autocomplete.Trigger
import Autocomplete.Binding
import Autocomplete.Event.Bus
import Autocomplete.Event.Json
import Autocomplete.Merge
import Autocomplete.Capabilities
import Autocomplete.Handle
import Autocomplete.Session.Requests
import Autocomplete.Session.Timers
import Autocomplete.Session.Messages
import Autocomplete.Session.Pair
import Autocomplete.Session.Setup
import Autocomplete.Toml.Reader
import Autocomplete.Logging.Document
import Autocomplete.Logging.Sinks
import Autocomplete.Proofs.Table
import Autocomplete.Proofs.Session.Action
import Autocomplete.Proofs.Session.Change
import Autocomplete.Proofs.Session.Frame
import Autocomplete.Proofs.Session.Requests
import Autocomplete.Proofs.Session.Trace
import Autocomplete.Proofs.Session.Outcome
import Autocomplete.Proofs.Session.Asking
import Autocomplete.Proofs.Session.HeldText
import Autocomplete.Proofs.Session.Accounts
import Autocomplete.Proofs.Session.Coherence
import Autocomplete.Proofs.Session.History
import Autocomplete.Proofs.Session.Shown
import Autocomplete.Proofs.Session.Standing
import Autocomplete.Proofs.Text.Columns
import Autocomplete.Proofs.Text.Lines
import Autocomplete.Proofs.Buffer
import Autocomplete.Proofs.Buffer.Cursor
import Autocomplete.Proofs.Text.Substitution
import Autocomplete.Proofs.Session.Edits
import Autocomplete.Proofs.Text.ByteOrder
import Autocomplete.Proofs.Sorting
import Autocomplete.Proofs.Fuzzy
import Autocomplete.Proofs.Response
import Autocomplete.Proofs.Merge
import Autocomplete.Proofs.Session.Outstanding
import Autocomplete.Proofs.Session.Detachment
import Autocomplete.Proofs.Session.Telling
import Autocomplete.Proofs.Session.Help
import Autocomplete.Proofs.Session.Acceptance
import Autocomplete.Proofs.Session.Timers
import Autocomplete.Proofs.Session.Published
import Autocomplete.Proofs.Session.Progress
import Autocomplete.Proofs.Session.Sending
import Autocomplete.Proofs.Session.Reset
import Autocomplete.Proofs.Session.Events
import Autocomplete.Proofs.Session.Positions
import Autocomplete.Proofs.Boundary
import Autocomplete.Proofs.StartColumn
import Autocomplete.Proofs.Session.Aside
import Autocomplete.Proofs.Session.Deletion
import Autocomplete.Proofs.Session.Closing
import Autocomplete.Proofs.Session.Gathering
import Autocomplete.Proofs.Session.Pacing
import Autocomplete.Proofs.Snippet
import Autocomplete.Proofs.Session.Replay
import Autocomplete.Proofs.Session.Place
import Autocomplete.Proofs.Session.Removal
import Autocomplete.Proofs.Session.Displacement
import Autocomplete.Proofs.Session.Fallback
import Autocomplete.Proofs.Session.StartColumn
import Autocomplete.Proofs.Item
import Autocomplete.Proofs.Defaults
import Autocomplete.Proofs.Defaults.Spoiling
import Autocomplete.Proofs.Defaults.EmptyText
import Autocomplete.Proofs.Session.Encoding
import Autocomplete.Proofs.Session.Delays
import Autocomplete.Proofs.Session.Draining
import Autocomplete.Proofs.Session.Operations
import Autocomplete.Proofs.Session.Problems
import Autocomplete.Proofs.Session.FirstHelp
import Autocomplete.Proofs.Session.Cancellations
import Autocomplete.Proofs.Event.Bus
import Autocomplete.Proofs.Text.Split
import Autocomplete.Proofs.Logging.Override
import Autocomplete.Proofs.Logging.Directives
import Autocomplete.Proofs.Match
import Autocomplete.Proofs.Snippet.Escape
import Autocomplete.Proofs.IdentifierStart
import Autocomplete.Proofs.Latency

import Autocomplete.Buffer
import Autocomplete.Handle
import Autocomplete.Latency
import Autocomplete.Merge
import Autocomplete.Trace

/-!
The state of a completion session: the edited text with its popup, the requests that were sent and
the messages that wait to be handled, and what the session itself remembers between them.
-/
namespace Autocomplete
open Text

/-- What the answer to a request is for. -/
inductive Purpose where
  | completion (id : RequestId)
  | signatureHelp
  | resolve
  | command (name : String)
  deriving DecidableEq, Repr

def Purpose.method : Purpose → Method
  | .completion _ => .completion
  | .signatureHelp => .signatureHelp
  | .resolve => .resolve
  | .command _ => .executeCommand

/-- A request that was sent. -/
structure Request where
  server : ServerId
  purpose : Purpose
  /-- The session still wants the answer. -/
  live : Bool := true
  /-- The answer has not arrived yet. -/
  awaiting : Bool := true
  handle : RequestHandle

/-- What a timer is for. -/
inductive TimerKind where
  | completion | signatureHelp
  deriving DecidableEq, Repr

/-- What waits to be handled. -/
inductive Message where
  | timer (kind : TimerKind) (serial : Nat)
  | reply (number : Nat) (server : ServerId) (purpose : Purpose) (reply : Reply)

/-- Tells whether the message of a timer still counts. There is one for each timer that was armed. -/
structure TimerToken where
  kind : TimerKind
  /-- The timer has not been dropped. -/
  live : Bool := true
  deriving DecidableEq, Repr

/-- An armed timer; it posts its message once, as soon as it is due. -/
structure Timer where
  /-- The place of its token. -/
  serial : Nat
  due : Nat
  posted : Bool := false
  deriving DecidableEq, Repr

/-- Whether a request is the first after a pause or one of many while the popup is open. -/
inductive Phase where
  | leading | subsequent
  deriving DecidableEq, Repr

def Phase.display : Phase → String
  | .leading => "Leading"
  | .subsequent => "Subsequent"

structure ScheduledCompletion where
  timer : Timer
  trigger : Trigger
  phase : Phase

structure ScheduledSignatureHelp where
  timer : Timer
  character : Char

/-- The completion requests of one trigger, one for each server. -/
structure Round where
  id : RequestId
  trigger : Trigger
  cursor : Cursor
  /-- When it started, in milliseconds. -/
  started : Nat
  /-- The numbers of all its requests. -/
  asked : List Nat
  /-- The numbers of the requests without an answer. -/
  pending : ServerMap Nat
  replies : ServerMap Reply

namespace Round

/-- Puts in the answer of a server. -/
def record (c : Round) (server : ServerId) (reply : Reply) : Round :=
  { c with pending := c.pending.erase server, replies := c.replies.insert server reply }

/-- Leaves a server out. -/
def drop (c : Round) (server : ServerId) : Round :=
  { c with pending := c.pending.erase server, replies := c.replies.erase server }

section
variable (c : Round) (server x : ServerId) (reply : Reply)

theorem pending_record : (c.record server reply).pending.find? x =
    if server = x then none else c.pending.find? x := Table.find?_erase ..

theorem replies_record : (c.record server reply).replies.find? x =
    if server = x then some reply else c.replies.find? x := Table.find?_insert ..

theorem pending_drop : (c.drop server).pending.find? x =
    if server = x then none else c.pending.find? x := Table.find?_erase ..

theorem replies_drop : (c.drop server).replies.find? x =
    if server = x then none else c.replies.find? x := Table.find?_erase ..

end
end Round

/-- The signature help requests of one trigger, one for each server. -/
structure SignatureRound where
  asked : List Nat
  pending : ServerMap Nat
  replies : ServerMap Reply

/-- The accepted item whose missing parts were asked for. -/
structure PendingResolve where
  number : Nat
  payload : Payload
  expansion : Option Expansion
  /-- The buffer's edit count for which edits are still good. -/
  tick : Nat

structure Popup where
  visible : Bool := false
  /-- The list that was presented last. -/
  entries : List Match := []
  deriving Inhabited

/-- Expands snippets while it is available. -/
structure SnippetEngine where
  name : String
  available : Bool
  deriving DecidableEq, Repr, Inhabited

structure Session where
  config : Config
  /-- The name of the edited document. -/
  uri : String
  buffer : Buffer
  popup : Popup := {}
  /-- Somebody shows signature help. -/
  signatureView : Bool
  /-- In the order in which they are tried. -/
  snippets : List SnippetEngine
  matcher : Matcher
  /-- The editor's handlers for commands of all servers. -/
  globals : Registry
  /-- Handlers that are used in place of the editor's. -/
  ownCommands : Option Registry
  /-- Requests can be cancelled where they were sent. -/
  cancellable : Bool
  /-- Answers that come at once, the latest first. -/
  automatic : List (ServerId × Method × Reply) := []
  requests : List Request := []
  queue : List Message := []
  /-- The time in milliseconds. -/
  now : Nat := 0
  /-- In the order in which the timers were armed. -/
  tokens : List TimerToken := []
  bindings : ServerMap Binding := Table.empty
  latency : Latency := Latency.empty
  completionTimer : Option ScheduledCompletion := none
  lastRequest : Option Nat := none
  round : Option Round := none
  /-- The last results were incomplete. -/
  isIncomplete : Bool := false
  /-- The popup will be reported closed because it was replaced. -/
  suppressDone : Bool := false
  /-- The next accepted item is to be expanded. -/
  expandSnippet : Bool := false
  /-- Where deleting text asks for results again. -/
  tracked : Option Cursor := none
  signatureTimer : Option ScheduledSignatureHelp := none
  signatureRound : Option SignatureRound := none
  resolve : Option PendingResolve := none
  /-- The problems that were reported. -/
  reported : List String := []
  lastId : RequestId := ⟨0⟩
  trace : List Observation := []

/-- What a session is doing about completion. -/
inductive Activity where
  | idle | leadingDebounce | requestInFlight | subsequentDebounce
  deriving DecidableEq, Repr

def Activity.display : Activity → String
  | .idle => "Idle"
  | .leadingDebounce => "LeadingDebounce"
  | .requestInFlight => "RequestInFlight"
  | .subsequentDebounce => "SubsequentDebounce"

namespace Session

/-- An armed timer comes before a round that is under way. -/
def activity (s : Session) : Activity :=
  match s.completionTimer, s.round with
  | some scheduled, _ =>
    match scheduled.phase with
    | .leading => .leadingDebounce
    | .subsequent => .subsequentDebounce
  | none, some _ => .requestInFlight
  | none, none => .idle

def call (s : Session) (c : Call) : Session := { s with trace := s.trace ++ [.call c] }

def emit (s : Session) (e : Event) : Session := { s with trace := s.trace ++ [.event e] }

def log (s : Session) (level : Level) (area message : String)
    (fields : List (String × Json) := []) : Session :=
  { s with trace := s.trace ++ [.log ⟨level, "quill_completion::" ++ area, message, fields⟩] }

def logAll (s : Session) (records : List LogRecord) : Session :=
  { s with trace := s.trace ++ records.map .log }

/-- Tells the user about a problem, unless the same text was reported before. -/
def report (s : Session) (severity : Severity) (message : String) : Session :=
  if s.reported.contains message then s
  else
    let s := s.log .warn "report" "Reporting completion problem"
      [("level", .str severity.name), ("message", .str message)]
    let s := s.call (.notify severity message)
    { s with reported := message :: s.reported }

def note (s : Session) (n : Note) : Session := { s with trace := s.trace ++ [.note n] }

/-- Changes the text of the buffer. -/
def edit (s : Session) (cause : EditCause) (start stop : Cursor) (text : List Char) : Session :=
  { s with
    buffer := s.buffer.replace start stop text
    trace := s.trace ++ [.edit cause start stop text] }

/-- The handlers for commands of all servers. -/
def commands (s : Session) : Registry := s.ownCommands.getD s.globals

/-- What every request about the cursor holds: the document and the position, counted as the server
counts. -/
def documentPosition (s : Session) (encoding : Encoding) : List (String × Json) :=
  [("textDocument", .ofFields [("uri", .str s.uri)]),
   ("position", (Position.ofCursor encoding s.buffer.currentLine s.buffer.cursor).encode)]

end Session
end Autocomplete

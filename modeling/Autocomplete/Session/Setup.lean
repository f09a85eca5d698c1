import Autocomplete.Session.State

/-!
Setting up a session from its settings and from the parts of an editor that it works with, of which
some must not be missing.
-/
namespace Autocomplete

/-- The parts without which there is no session. -/
inductive Collaborator where
  | buffer | popup | transport | notifier | runtime
  deriving DecidableEq, Repr

namespace Collaborator

def name : Collaborator → String
  | .buffer => "text buffer"
  | .popup => "popup"
  | .transport => "transport"
  | .notifier => "notifier"
  | .runtime => "tokio runtime"

/-- The order in which they are looked for. -/
def all : List Collaborator := [.buffer, .popup, .transport, .notifier, .runtime]

end Collaborator

/-- Why a session cannot be set up. -/
inductive SetupError where
  | invalidConfig (e : ExcessiveWindow)
  | missing (c : Collaborator)
  deriving DecidableEq, Repr

def SetupError.message : SetupError → String
  | .invalidConfig e => s!"Invalid completion configuration: {e.message}"
  | .missing c => s!"Missing host collaborator: {c.name}"

/-- What a session is made of. -/
structure Setup where
  config : Config
  uri : String
  lines : List Text.Line
  cursor : Cursor
  /-- The parts that are not there. -/
  missing : List Collaborator
  signatureView : Bool
  snippets : List SnippetEngine
  matcher : Matcher
  /-- The editor's handlers; without them the session has the default ones. -/
  commands : Option Registry
  cancellable : Bool

namespace Setup

/-- A session in which nothing has happened yet. -/
def session (setup : Setup) : Session :=
  let c := setup.config
  { config := c
    uri := setup.uri
    buffer := { lines := setup.lines, cursor := setup.cursor }
    signatureView := setup.signatureView
    snippets := setup.snippets
    matcher := setup.matcher
    globals := setup.commands.getD Table.empty
    ownCommands := if setup.commands.isSome then none else some Registry.defaults
    cancellable := setup.cancellable : Session }.log .info "engine" "Completion engine initialized"
      [("leading_debounce_ms", .ofNat c.leadingMs), ("server_side_fuzzy", .bool c.fuzzy),
       ("trigger_on_delete", .bool c.triggerOnDelete)]

/-- Settings are checked before parts are looked for. -/
def build (setup : Setup) : Except SetupError Session :=
  match setup.config.validate with
  | .error e => .error (.invalidConfig e)
  | .ok _ =>
    match Collaborator.all.find? setup.missing.contains with
    | some c => .error (.missing c)
    | none => .ok setup.session

end Setup
end Autocomplete

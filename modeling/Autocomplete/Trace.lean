import Autocomplete.Command
import Autocomplete.Event
import Autocomplete.Merge
import Autocomplete.SignatureHelp
import Autocomplete.Snippet

/-!
What can be seen of a session from outside: the calls that it makes to the editor and the servers,
the events that it publishes and what it logs, in the order in which they happen. Edits are kept with
their causes, and between them stand the notes that a session makes for itself, of which nobody is
told.
-/
namespace Autocomplete

/-- The requests that a session sends. -/
inductive Method where
  | completion | signatureHelp | resolve | executeCommand
  deriving DecidableEq, Repr

namespace Method

def name : Method → String
  | .completion => "textDocument/completion"
  | .signatureHelp => "textDocument/signatureHelp"
  | .resolve => "completionItem/resolve"
  | .executeCommand => "workspace/executeCommand"

def ofName? : String → Option Method
  | "textDocument/completion" => some .completion
  | "textDocument/signatureHelp" => some .signatureHelp
  | "completionItem/resolve" => some .resolve
  | "workspace/executeCommand" => some .executeCommand
  | _ => none

theorem ofName?_name (m : Method) : ofName? m.name = some m := by cases m <;> rfl

end Method

/-- How bad a reported problem is. -/
inductive Severity where
  | warning | error
  deriving DecidableEq, Repr

def Severity.name : Severity → String
  | .warning => "Warning"
  | .error => "Error"

/-- A call to the editor or to a server. -/
inductive Call where
  /-- Requests are numbered in the order in which they are sent. -/
  | request (number : Nat) (server : ServerId) (method : Method) (params : Json)
  | cancel (number : Nat)
  | present (startColumn : Nat) (entries : List Match)
  | confirm
  | notify (severity : Severity) (message : String)
  | signature (server : ServerId) (help : SignatureHelp)
  | expand (engine template : String)
  | edit (start stop : Cursor) (text : List Char)
  | command (scope : Scope) (server : ServerId) (command : Command)

/-- Why the buffer is edited. -/
inductive EditCause where
  /-- The user types or deletes. -/
  | user
  /-- An accepted item brings further edits along. -/
  | server
  /-- The inserted word and the rest of its line are taken out for a snippet. -/
  | makeRoom (e : Expansion)
  /-- What was taken out is put back. -/
  | putBack

/-- What becomes of the servers that a round asked. -/
inductive Note where
  /-- The answer to a request was put into the round. -/
  | recorded (number : Nat) (server : ServerId) (reply : Reply)
  | detached (server : ServerId)

inductive Observation where
  /-- Any call but an edit. -/
  | call (c : Call)
  | edit (cause : EditCause) (start stop : Cursor) (text : List Char)
  | event (e : Event)
  | log (r : LogRecord)
  | note (n : Note)

namespace Observation

def call? : Observation → Option Call
  | .call c => some c
  | .edit _ start stop text => some (.edit start stop text)
  | _ => none

def event? : Observation → Option Event
  | .event e => some e
  | _ => none

def log? : Observation → Option LogRecord
  | .log r => some r
  | _ => none

end Observation
end Autocomplete

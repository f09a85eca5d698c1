import Autocomplete.Session.Attachment
import Autocomplete.Session.Messages

/-!
Everything that can happen to a session, one operation at a time: what the editor tells it, what the
editor does by itself, the answers of servers, and the passing of time.
-/
namespace Autocomplete
open Text

/-- With what the popup closes. -/
inductive Selection where
  | dismissed
  /-- An entry of the list that was presented last. -/
  | entry (index : Nat)
  | given (m : Match)

/-- Which of the requests without an answer is meant; among several the oldest. -/
inductive Target where
  | number (n : Nat)
  | oldest (server : ServerId) (method : Method)

inductive Operation where
  | attach (server : ServerId) (capabilities : Capabilities) (options : AttachOptions)
  | detach (server : ServerId)
  /-- The editor puts a text in at the cursor. -/
  | insertText (text : List Char)
  /-- The editor deletes the character left of the cursor. -/
  | backspace
  | setCursor (cursor : Cursor)
  | setInserting (inserting : Bool)
  | setVisible (visible : Bool)
  | setAvailable (engine : String) (available : Bool)
  /-- The editor puts a character in and tells the session. -/
  | typeChar (c : Char)
  | charInserted (c : Char)
  | textDeleted
  | cursorMoved
  | insertLeave
  | triggerCompletion
  | triggerSignatureHelp
  | acceptPending
  | completeDone (selection : Selection)
  | registerCommand (server : ServerId) (command : String) (reaction : Reaction)
  | registerGlobal (command : String) (reaction : Reaction)
  | unregisterGlobal (command : String)
  /-- From now on certain requests are answered at once. -/
  | answerAlways (server : ServerId) (method : Method) (reply : Reply)
  | respond (target : Target) (reply : Reply)
  | drain
  /-- Time passes, and then all messages are handled. -/
  | advance (ms : Nat)
  /-- Time passes, and nothing is handled. -/
  | elapse (ms : Nat)
  /-- One message is handled, for which at most the given time is waited. -/
  | next (ms : Nat)

/-- Whether timers that are due post their messages during an operation. -/
def Operation.passesTime : Operation → Bool
  | .advance _ => true
  | .elapse _ => true
  | .next _ => true
  | _ => false

/-- What an operation returns. -/
inductive Outcome where
  | nothing
  | flag (b : Bool)
  | count (n : Nat)
  | unknownServer (server : ServerId)
  deriving DecidableEq, Repr

/-- Why a handler cannot be registered. -/
def unknownServerMessage (server : ServerId) : String :=
  s!"Server {server.display} is not attached to this buffer"

namespace Session

def insertText (s : Session) (text : List Char) : Session :=
  s.edit .user s.buffer.cursor s.buffer.cursor text

/-- At the start of a line there is nothing to delete. -/
def backspace (s : Session) : Session :=
  let line := s.buffer.line s.buffer.cursor.line
  let column := floorColumn line s.buffer.cursor.column
  if column = 0 then s
  else s.edit .user ⟨s.buffer.cursor.line, floorColumn line (column - 1)⟩
    ⟨s.buffer.cursor.line, column⟩ []

def setAvailable (s : Session) (engine : String) (available : Bool) : Session :=
  { s with
    snippets := s.snippets.map fun e => if e.name = engine then { e with available } else e }

/-- The entry that a selection stands for; one past the end of the list stands for none. -/
def selected? (s : Session) : Selection → Option Match
  | .dismissed => none
  | .entry index => s.popup.entries[index]?
  | .given m => some m

def registerGlobal (s : Session) (command : String) (reaction : Reaction) : Session :=
  let handler : Handler := ⟨some .global, reaction⟩
  { s with globals := s.globals.insert command handler }

/-- The number of a request that waits for its answer. -/
def awaiting? (s : Session) : Target → Option Nat
  | .number n => (s.requests[n]?).bind fun r => if r.awaiting then some n else none
  | .oldest server method => s.requests.findIdx? fun r =>
      r.awaiting && r.server == server && r.purpose.method == method

/-- The answer to a request arrives; returns whether a request waited for it. -/
def respond (s : Session) (target : Target) (reply : Reply) : Session × Bool :=
  match s.awaiting? target with
  | some n => (s.answer n reply, true)
  | none => (s, false)

/-- Waits for a message. Timers that are due post theirs, and if none waits then, time passes up to
the first timer, but at most the given number of milliseconds. -/
def await (s : Session) (ms : Nat) : Session :=
  let s := s.postTimers
  if s.queue.isEmpty then s.elapse (min ms (s.untilTimer?.getD ms)) else s

/-- Waits for a message and handles it; returns whether there was one. -/
def next (s : Session) (ms : Nat) : Session × Bool :=
  let s := s.await ms
  match s.handleNext with
  | some s => (s, true)
  | none => (s, false)

/-- Carries out one operation. -/
def apply (s : Session) : Operation → Session × Outcome
  | .attach server capabilities options => (s.attach server capabilities options, .nothing)
  | .detach server => (s.detach server, .nothing)
  | .insertText text => (s.insertText text, .nothing)
  | .backspace => (s.backspace, .nothing)
  | .setCursor cursor => ({ s with buffer := { s.buffer with cursor } }, .nothing)
  | .setInserting inserting => ({ s with buffer := { s.buffer with inserting } }, .nothing)
  | .setVisible visible => ({ s with popup := { s.popup with visible } }, .nothing)
  | .setAvailable engine available => (s.setAvailable engine available, .nothing)
  | .typeChar c => ((s.insertText [c]).charInserted c, .nothing)
  | .charInserted c => (s.charInserted c, .nothing)
  | .textDeleted => (s.textDeleted, .nothing)
  | .cursorMoved => (s.cursorMoved, .nothing)
  | .insertLeave => (s.insertLeave, .nothing)
  | .triggerCompletion => (s.triggerCompletion, .nothing)
  | .triggerSignatureHelp => (s.triggerSignatureHelp, .nothing)
  | .acceptPending =>
    let (s, accepted) := s.acceptPending
    (s, .flag accepted)
  | .completeDone selection => (s.completeDone (s.selected? selection), .nothing)
  | .registerCommand server command reaction =>
    let (s, known) := s.registerCommand server command reaction
    (s, if known then .nothing else .unknownServer server)
  | .registerGlobal command reaction => (s.registerGlobal command reaction, .nothing)
  | .unregisterGlobal command =>
    ({ s with globals := s.globals.erase command }, .flag (s.globals.contains command))
  | .answerAlways server method reply =>
    ({ s with automatic := (server, method, reply) :: s.automatic }, .nothing)
  | .respond target reply =>
    let (s, waited) := s.respond target reply
    (s, .flag waited)
  | .drain =>
    let (s, n) := s.drain
    (s, .count n)
  | .advance ms =>
    let (s, n) := (s.elapse ms).drain
    (s, .count n)
  | .elapse ms => (s.elapse ms, .nothing)
  | .next ms =>
    let (s, handled) := s.next ms
    (s, .flag handled)

/-- Carries out operations one after the other. -/
def run (s : Session) (operations : List Operation) : Session :=
  operations.foldl (fun s o => (s.apply o).1) s

end Session
end Autocomplete

import Autocomplete.Session.Acceptance

/-!
Handling messages. A message of a request or timer that the session no longer cares for has no
effect. `drain` handles all messages that wait, with those that come up meanwhile.
-/
namespace Autocomplete.Session

/-- A completion timer has run down, which is taken to be the one that is armed. -/
def completionTimerElapsed (s : Session) : Session :=
  match s.completionTimer with
  | some scheduled => s.dropCompletionTimer.startRound scheduled.trigger
  | none => s

/-- A signature help timer has run down, which is taken to be the one that is armed. -/
def signatureTimerElapsed (s : Session) : Session :=
  match s.signatureTimer with
  | some scheduled => s.dropSignatureTimer.sendSignatureHelp (some scheduled.character)
  | none => s

/-- The answer to a command matters only if it is an error. -/
def takeCommandReply (s : Session) (server : ServerId) (command : String) (reply : Reply) :
    Session :=
  match reply with
  | .ok _ => s
  | .error e => s.report .warning s!"Command {command} failed on {server.display}: {e.message}"

/-- Handles a message, given whether anybody still cares for what it stems from. -/
def handle (s : Session) (live : Bool) (message : Message) : Session :=
  match message with
  | .timer kind _ =>
    if live then
      match kind with
      | .completion => s.completionTimerElapsed
      | .signatureHelp => s.signatureTimerElapsed
    else s.log .trace "engine" "Dropping expired timer"
  | .reply _ server purpose reply =>
    match purpose with
    | .completion id =>
      if live then s.takeCompletion id server reply
      else s.log .trace "engine" "Dropping response of a cancelled request"
        [("server", .str server.display)]
    | .signatureHelp => if live then s.takeSignature server reply else s
    | .resolve => if live then s.takeResolved reply else s
    | .command name => s.takeCommandReply server name reply

/-- Takes the message that waits longest. -/
def nextMessage? (s : Session) : Option (Message × Session) :=
  match s.queue with
  | [] => none
  | m :: rest => some (m, { s with queue := rest })

/-- Handles the message that waits longest. -/
def handleNext (s : Session) : Option Session :=
  s.nextMessage?.map fun (m, rest) => rest.handle (rest.isLive m) m

/-- How many messages may have to be handled on account of one: itself, and what is answered at once
of the requests that it makes the session send. -/
def messageWeight (bindings : Nat) : Message → Nat
  | .timer .. => bindings + 2
  | .reply _ _ .resolve _ => bindings + 2
  | .reply .. => 1

/-- How many messages may have to be handled until none waits. -/
def backlog (s : Session) : Nat :=
  s.queue.foldr (fun m n => messageWeight s.bindings.size m + n) 0

/-- Handles at most `fuel` messages and returns how many there were. -/
def drainUpTo : Nat → Session → Session × Nat
  | 0, s => (s, 0)
  | fuel + 1, s =>
    match s.handleNext with
    | some s =>
      let (s, n) := drainUpTo fuel s
      (s, n + 1)
    | none => (s, 0)

/-- Handles all messages and returns how many there were. -/
def drain (s : Session) : Session × Nat := drainUpTo s.backlog s

end Autocomplete.Session

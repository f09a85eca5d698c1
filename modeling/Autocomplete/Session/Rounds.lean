import Autocomplete.Session.Requests
import Autocomplete.Session.Timers

/-!
Rounds of completion requests. A round asks every server that completes, collects the answers, and
when the last one is there merges them and presents the result, provided that the user is still
typing on the line where the round started.
-/
namespace Autocomplete.Session

/-- The parameters of a completion request. Only a server that registered the trigger character is
told of it. -/
def completionParams (s : Session) (trigger : Trigger) (b : Binding) : Json :=
  let registered := (trigger.character?.map b.isTrigger).getD false
  let character := if registered then trigger.character? else none
  let context := Json.ofOptions [("triggerKind", some (.ofNat (trigger.kind registered).code)),
    ("triggerCharacter", character.map fun c => .str c.toString)]
  .ofFields (s.documentPosition b.encoding ++ [("context", context)])

/-- Asks some servers one after the other; the result pairs each with the number of its request. -/
def askAll (purpose : Purpose) (params : Session → Binding → Json) :
    Session → List Binding → Session × List (ServerId × Nat)
  | s, [] => (s, [])
  | s, b :: rest =>
    let (s, number) := s.send b.server purpose (params s b)
    let (s, asked) := askAll purpose params s rest
    (s, (b.server, number) :: asked)

/-- Ends the round that is under way without its results. -/
def giveUpRound (s : Session) (reason : CancelReason) : Session :=
  match s.round with
  | some round =>
    ({ s with round := none }.cancelAll round.asked round.pending).emit (.cancelled round.id reason)
  | none => s

/-- Asks all servers that complete. Without any there is no round, although its number is used
up. -/
def openRound (s : Session) (trigger : Trigger) : Session :=
  let cursor := s.buffer.cursor
  let id := s.lastId.next
  let s := { s with lastId := id }
  let (s, asked) := askAll (.completion id) (fun s b => s.completionParams trigger b) s
    (s.bindings.values.filter (·.completes))
  if asked.isEmpty then s.log .debug "engine" "No server accepted the completion request"
  else
    let tracked := if s.config.triggerOnDelete && s.tracked.isNone then some cursor else s.tracked
    let s := { s with tracked, lastRequest := some s.now }
    let s := s.log .info "engine" "Sending completion request"
      [("request_id", .ofNat id.toNat), ("trigger", .str trigger.display),
       ("line", .ofNat cursor.line), ("column", .ofNat cursor.column)]
    let pending : ServerMap Nat := Table.ofList asked
    let round : Round := { id, trigger, cursor, started := s.now, asked := asked.map (·.2), pending,
                           replies := Table.empty }
    { s with round := some round }.emit (.requested id trigger cursor pending.keys)

/-- Starts a round in place of the one that is under way. -/
def startRound (s : Session) (trigger : Trigger) : Session :=
  (s.giveUpRound .newRequest).openRound trigger

/-- What happens with the error of one server once all have answered. -/
def reportFailure (id : RequestId) (s : Session) (failure : ServerId × ResponseError) : Session :=
  let (server, error) := failure
  let s := if error.isCancelled then s
    else s.report .error s!"Completion failed on {server.display}: {error.message}"
  s.emit (.requestFailed id server error)

/-- Hands merged results to the popup. Replacing a visible popup closes it first, which is not to be
taken for the user's doing. -/
def present (s : Session) (round : Round) (merged : Merged) (roundTrip : Duration) : Session :=
  let count := merged.entries.length
  let s := { s with suppressDone := s.popup.visible || s.suppressDone }
  let s := s.log .info "engine" "Showing completion results"
    [("request_id", .ofNat round.id.toNat), ("trigger", .str round.trigger.display),
     ("items", .ofNat count), ("start_column", .ofNat merged.startColumn),
     ("latency_ms", .ofNat roundTrip.milliseconds)]
  let s := s.call (.present merged.startColumn merged.entries)
  let s := { s with popup := { visible := true, entries := merged.entries } }
  s.emit (.resultsShown round.id merged.startColumn count merged.isIncomplete
    roundTrip.milliseconds)

/-- The merged answers of a round, for the buffer as it is now. -/
def mergeRound (s : Session) (round : Round) : Merged :=
  let line := s.buffer.currentLine
  let cursor := s.buffer.cursor
  merge { lineNumber := cursor.line, line, cursorColumn := cursor.column,
          naiveStart := naiveStart line cursor.column } round.replies s.bindings s.matcher

/-- Ends a round in which all servers have answered. -/
def finishRound (s : Session) (round : Round) : Session :=
  let s := { s with round := none }
  let about := [("request_id", Json.ofNat round.id.toNat)]
  if !s.buffer.inserting then
    s.log .debug "engine" "Left insert mode, dropping results" about
  else if s.buffer.cursor.line ≠ round.cursor.line then
    s.log .debug "engine" "Cursor changed lines, dropping results" about
  else
    let merged := s.mergeRound round
    let roundTrip := Duration.ofMilliseconds (s.now - round.started)
    let s := s.logAll (mergeDiagnostics round.replies merged)
    let s := { s with latency := s.latency.record roundTrip, matcher := merged.matcher }
    let s := merged.errors.foldl (reportFailure round.id) s
    let s := { s with isIncomplete := merged.isIncomplete }
    if merged.entries.isEmpty && !s.popup.visible then
      s.log .debug "engine" "No completion results" about
    else s.present round merged roundTrip

/-- Puts the answer of one server into a round. One that was not asked, or has answered, is passed
over. -/
def recordReply (s : Session) (round : Round) (server : ServerId) (reply : Reply) : Session :=
  match round.pending.find? server with
  | some number =>
    { s with round := some (round.record server reply) }.note (.recorded number server reply)
  | none => s

/-- Ends the round that is under way if all servers have answered. -/
def closeRound (s : Session) : Session :=
  match s.round with
  | some round => if round.pending.isEmpty then s.finishRound round else s
  | none => s

/-- Takes the answer of one server. Answers to other rounds, and those of servers that were not
asked, are dropped. -/
def takeCompletion (s : Session) (id : RequestId) (server : ServerId) (reply : Reply) : Session :=
  match s.round with
  | some round => if round.id = id then (s.recordReply round server reply).closeRound else s
  | none => s

/-- Leaves a server out of a round, and gives its request up if it has not answered. -/
def dropServer (s : Session) (round : Round) (server : ServerId) : Session :=
  let s := { s with round := some (round.drop server) }
  match round.pending.find? server with
  | some n => s.cancel n
  | none => s

/-- The round is no longer about a server that was detached. If that was the last one to answer, the
round ends with the answers of the others, or is given up if there are none. -/
def detachFromRound (s : Session) (server : ServerId) : Session :=
  match s.round with
  | none => s
  | some round =>
    let s := s.dropServer round server
    if (round.pending.find? server).isNone && !round.replies.contains server then s
    else if !(round.drop server).pending.isEmpty then s
    else if (round.drop server).replies.isEmpty then
      { s with round := none }.emit (.cancelled round.id .detached)
    else s.finishRound (round.drop server)

end Autocomplete.Session

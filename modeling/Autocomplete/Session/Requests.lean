import Autocomplete.Session.State

/-!
Sending requests, receiving their answers and giving them up. An answer becomes a message only while
the session still wants it.
-/
namespace Autocomplete.Session

/-- The answer to a request arrives. -/
def answer (s : Session) (number : Nat) (reply : Reply) : Session :=
  match s.requests[number]? with
  | some r =>
    if r.awaiting then
      let s := { s with requests := s.requests.set number { r with awaiting := false } }
      if r.live then { s with queue := s.queue ++ [.reply number r.server r.purpose reply] } else s
    else s
  | none => s

/-- The answer that comes at once, if there is one. -/
def automaticReply? (s : Session) (server : ServerId) (method : Method) : Option Reply :=
  s.automatic.findSome? fun (other, m, reply) =>
    if other = server ∧ m = method then some reply else none

/-- A handle as every request has it in the beginning. -/
def freshHandle (s : Session) : RequestHandle :=
  if s.cancellable then .cancellable else .detached

/-- Hands a request to the transport. Requests are numbered in the order in which they are sent. -/
def post (s : Session) (server : ServerId) (purpose : Purpose) (params : Json) : Session :=
  let r : Request := { server, purpose, handle := s.freshHandle }
  { s with requests := s.requests ++ [r] }.call
    (.request s.requests.length server purpose.method params)

/-- Sends a request and returns its number. -/
def send (s : Session) (server : ServerId) (purpose : Purpose) (params : Json) : Session × Nat :=
  let number := s.requests.length
  let s := s.post server purpose params
  match s.automaticReply? server purpose.method with
  | some reply => (s.answer number reply, number)
  | none => (s, number)

/-- The session no longer wants the answer to a request. -/
def forget (s : Session) (number : Nat) : Session :=
  { s with requests := s.requests.modify number fun r => { r with live := false } }

/-- Gives a request up, here and where it was sent. -/
def cancel (s : Session) (number : Nat) : Session :=
  let s := s.forget number
  match s.requests[number]? with
  | some r =>
    if r.handle.pending then
      let r := { r with handle := r.handle.cancel }
      { s with requests := s.requests.set number r }.call (.cancel number)
    else s
  | none => s

/-- Gives up all requests of a round; only those without an answer are cancelled where they were
sent. -/
def cancelAll (s : Session) (asked : List Nat) (pending : ServerMap Nat) : Session :=
  pending.values.foldl cancel (asked.foldl forget s)

/-- Whether a message stems from a request or a timer that the session still cares for. -/
def isLive (s : Session) : Message → Bool
  | .timer _ serial => ((s.tokens[serial]?).map (·.live)).getD false
  | .reply number .. => ((s.requests[number]?).map (·.live)).getD false

end Autocomplete.Session

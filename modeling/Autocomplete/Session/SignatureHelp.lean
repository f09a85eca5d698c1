import Autocomplete.Session.Rounds

/-!
Signature help. Its requests go to the servers whose trigger character was typed, or to all that
offer help; of their answers the first with a signature is shown, in ascending order of the servers.
-/
namespace Autocomplete.Session

/-- The parameters of a signature help request. -/
def signatureParams (s : Session) (trigger : Option Char) (b : Binding) : Json :=
  let kind := if trigger.isSome then Trigger.Kind.triggerCharacter else .invoked
  let context := Json.ofOptions [("triggerKind", some (.ofNat kind.code)),
    ("triggerCharacter", trigger.map fun c => .str c.toString), ("isRetrigger", some (.bool false))]
  .ofFields (s.documentPosition b.encoding ++ [("context", context)])

/-- Gives up the signature help requests that are under way. -/
def cancelSignatureRound (s : Session) : Session :=
  match s.signatureRound with
  | some round => { s with signatureRound := none }.cancelAll round.asked round.pending
  | none => s

/-- Drops the timer as well as the requests. -/
def cancelSignatureHelp (s : Session) : Session := s.dropSignatureTimer.cancelSignatureRound

/-- Whether a server is asked for signature help. -/
def wantsSignature (trigger : Option Char) (b : Binding) : Bool :=
  match trigger with
  | some c => b.isSignatureTrigger c
  | none => b.helps

/-- How diagnostics write a character that may be missing. -/
def characterLabel : Option Char → String
  | some c => "Some(" ++ Text.quotedChar c ++ ")"
  | none => "None"

/-- Asks all servers that are to help. -/
def openSignatureRound (s : Session) (trigger : Option Char) : Session :=
  let (s, asked) := askAll .signatureHelp (fun s b => s.signatureParams trigger b) s
    (s.bindings.values.filter (wantsSignature trigger))
  if asked.isEmpty then s
  else
    let s := s.log .debug "signature_help" "Requesting signature help"
      [("servers", .ofNat asked.length), ("trigger", .str (characterLabel trigger))]
    { s with signatureRound := some ⟨asked.map (·.2), Table.ofList asked, Table.empty⟩ }

/-- Asks for signature help in place of the requests that are under way. -/
def sendSignatureHelp (s : Session) (trigger : Option Char) : Session :=
  s.cancelSignatureRound.openSignatureRound trigger

/-- Asks for signature help at once. -/
def triggerSignatureHelp (s : Session) : Session :=
  if s.signatureView then s.dropSignatureTimer.sendSignatureHelp none else s

/-- The longest window of some servers. -/
def longest : List Duration → Option Duration
  | [] => none
  | d :: rest => some (rest.foldl max d)

/-- Asks for signature help after a while if a trigger character was typed. -/
def scheduleSignatureHelp (s : Session) (c : Char) : Session :=
  if s.signatureView then
    match longest ((s.bindings.values.filter (·.isSignatureTrigger c)).map (·.leading)) with
    | some delay => s.armSignatureHelp delay c
    | none => s
  else s

/-- Looks at the answer of one server, given whether help was shown already. -/
def viewSignature (acc : Session × Bool) (answer : ServerId × Reply) : Session × Bool :=
  let (s, shown) := acc
  let (server, reply) := answer
  match reply with
  | .error e =>
    if e.isCancelled then (s, shown)
    else (s.report .error s!"Signature help failed on {server.display}: {e.message}", shown)
  | .ok value =>
    if shown then (s, shown)
    else match Decoder.nullable SignatureHelp.decode value with
      | .ok none => (s, false)
      | .ok (some help) =>
        if help.signatures.isEmpty || !s.signatureView then (s, false)
        else ((s.call (.signature server help)).emit
          (.signatureHelpShown server help.signatures.length), true)
      | .error _ => (s.log .debug "signature_help" "Malformed signature help response"
          [("server", .str server.display)], false)

/-- Ends a round of signature help in which all servers have answered. -/
def finishSignatureRound (s : Session) (round : SignatureRound) : Session :=
  let s := { s with signatureRound := none }
  if s.buffer.inserting then (round.replies.entries.foldl viewSignature (s, false)).1 else s

/-- Takes the answer of one server, if it was asked. -/
def takeSignature (s : Session) (server : ServerId) (reply : Reply) : Session :=
  match s.signatureRound with
  | some round =>
    if round.pending.contains server then
      let round := { round with pending := round.pending.erase server,
                                replies := round.replies.insert server reply }
      if round.pending.isEmpty then s.finishSignatureRound round
      else { s with signatureRound := some round }
    else s
  | none => s

/-- Signature help no longer waits for a server that was detached. -/
def detachFromSignature (s : Session) (server : ServerId) : Session :=
  match s.signatureRound with
  | some round =>
    match round.pending.find? server with
    | some number =>
      let round := { round with pending := round.pending.erase server }
      let s := { s with signatureRound := some round }.cancel number
      if round.pending.isEmpty then s.finishSignatureRound round else s
    | none => s
  | none => s

end Autocomplete.Session

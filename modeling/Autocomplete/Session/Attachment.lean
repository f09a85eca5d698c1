import Autocomplete.Session.Acceptance

/-!
Attaching servers to a session and detaching them.
-/
namespace Autocomplete.Session
open Text

/-- Attaches a server; an earlier binding of the same server is replaced, with its handlers. -/
def attach (s : Session) (server : ServerId) (capabilities : Capabilities)
    (options : AttachOptions) : Session :=
  let b := Binding.ofCapabilities server capabilities options s.config
  let s' := s.log .info "engine" "Attached language server"
    [("encoding", .str b.encoding.name),
     ("triggers", .str (bracketed (b.triggerCharacters.map quotedChar))), ("fuzzy", .bool b.fuzzy)]
  let s' := { s' with bindings := s.bindings.insert server b }
  match s.bindings.find? server with
  | some previous => s'.log .debug "engine" "Replaced existing binding"
      [("commands", .ofNat previous.localCommands.size)]
  | none => s'

/-- Detaches a server. What it was asked about completion and signature help is given up, and rounds
that waited for it alone are ended. -/
def detach (s : Session) (server : ServerId) : Session :=
  if s.bindings.contains server then
    let s := { s with bindings := s.bindings.erase server }.note (.detached server)
    (s.detachFromSignature server).detachFromRound server
  else s

/-- Gives a server a handler for one of its commands; returns whether the server is attached. -/
def registerCommand (s : Session) (server : ServerId) (command : String)
    (reaction : Reaction) : Session × Bool :=
  match s.bindings.find? server with
  | some b =>
    let handler : Handler := ⟨some .client, reaction⟩
    let b := { b with localCommands := b.localCommands.insert command handler }
    ({ s with bindings := s.bindings.insert server b }, true)
  | none => (s, false)

end Autocomplete.Session

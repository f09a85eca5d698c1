import Autocomplete.Session.Typing

/-!
Accepting an item: its snippet is expanded, its further edits are applied and its command is run.
Edits that the item does not bring along are asked for first, if its server offers that.
-/
namespace Autocomplete.Session
open Text

/-- The encoding in which a server counts; one that is not attached counts in UTF-16. -/
def encodingOf (s : Session) (server : ServerId) : Encoding :=
  ((s.bindings.find? server).map (·.encoding)).getD .utf16

/-- Whether an edit starts where another one does, or before it. -/
def startsBefore (a b : TextEdit) : Bool :=
  a.range.start.line < b.range.start.line ||
    a.range.start.line == b.range.start.line && a.range.start.character ≤ b.range.start.character

/-- Applies one edit of a server to the text as it is now. -/
def applyEdit (encoding : Encoding) (s : Session) (e : TextEdit) : Session :=
  let start := e.range.start.toCursor encoding (s.buffer.line e.range.start.line)
  let stop := e.range.stop.toCursor encoding (s.buffer.line e.range.stop.line)
  s.edit .server start stop e.newText.toList

/-- Applies the edits of a server, the last one first, so that those before it stay in place. -/
def applyEdits (s : Session) (server : ServerId) (edits : List TextEdit) : Session :=
  (edits.mergeSort startsBefore).reverse.foldl (applyEdit (s.encodingOf server)) s

/-- Takes the inserted word and the rest of its line out of the buffer. -/
def removeInsertedWord (s : Session) (word template : String) : Session × Expansion :=
  let cursor := s.buffer.cursor
  let line := s.buffer.currentLine
  let stop := floorColumn line cursor.column
  let start := floorColumn line (stop - byteLength word.toList)
  let e : Expansion :=
    { template
      word := dropBytes (takeBytes line stop) start
      suffix := dropBytes line stop }
  (s.edit (.makeRoom e) ⟨cursor.line, start⟩ ⟨cursor.line, byteLength line⟩ [], e)

/-- The first engine that is available. -/
def availableEngine? (s : Session) : Option SnippetEngine := s.snippets.find? (·.available)

/-- Puts back at the cursor what was taken out. -/
def restoreLiteral (s : Session) (e : Expansion) : Session :=
  s.edit .putBack s.buffer.cursor s.buffer.cursor e.literal

/-- Expands a snippet, or puts the literal text back if that is not possible. Returns whether it was
expanded. -/
def expand (s : Session) (e : Expansion) : Session × Bool :=
  if s.buffer.inserting then
    match s.availableEngine? with
    | some engine =>
      ((s.call (.expand engine.name e.snippet)).log .debug "accept" "Expanded snippet"
        [("engine", .str engine.name)], true)
    | none =>
      ((s.report .warning "No snippet engine available, inserting literal text").restoreLiteral e,
        false)
  else (s.restoreLiteral e, false)

def followUp (s : Session) (f : FollowUp) : Session :=
  let s := s.log .debug "engine" "Running command follow-up" [("follow_up", .str f.display)]
  match f with
  | .triggerCompletion => s.triggerCompletion
  | .triggerSignatureHelp => s.triggerSignatureHelp

/-- The handler of a command: one of the server's own comes first. -/
def handler? (s : Session) (server : ServerId) (command : String) : Option Handler :=
  ((s.bindings.find? server).bind fun b => b.localCommands.find? command) <|>
    s.commands.find? command

def runHandler (s : Session) (server : ServerId) (command : Command) (handler : Handler) :
    Session :=
  let s := s.log .debug "accept" "Running client command handler" [("command", .str command.name)]
  let s := match handler.scope with
    | some scope => s.call (.command scope server command)
    | none => s
  match handler.followUp command server with
  | some f => s.followUp f
  | none => s

/-- Runs the command of an item by a handler, or else on the server that supports it. -/
def executeCommand (s : Session) (server : ServerId) (command : Command) : Session :=
  match s.handler? server command.name with
  | some handler => s.runHandler server command handler
  | none =>
    if ((s.bindings.find? server).map (·.supports command.name)).getD false then
      let s := s.log .debug "accept" "Executing command on server"
        [("command", .str command.name), ("server", .str server.display)]
      let params := Json.ofFields [("command", .str command.name),
        ("arguments", .arr (command.arguments.getD []))]
      (s.send server (.command command.name) params).1
    else s.report .warning s!"Unsupported command {command.name} from {server.display}"

/-- Publishes an acceptance and runs the command, of which a resolved item may bring another one. -/
def concludeAccept (s : Session) (payload : Payload) (resolved : Option Command)
    (expanded : Bool) : Session :=
  let s := s.log .info "accept" "Accepted completion item"
    [("server", .str payload.server.display), ("label", .str payload.item.label),
     ("expanded_snippet", .bool expanded)]
  let s := s.emit (.itemAccepted payload.server payload.item.label expanded)
  match resolved <|> payload.item.command with
  | some command => s.executeCommand payload.server command
  | none => s

/-- The end of an acceptance; the snippet is expanded first. -/
def finishAccept (s : Session) (payload : Payload) (resolved : Option Command)
    (expansion : Option Expansion) : Session :=
  match expansion with
  | some e =>
    let (s, expanded) := s.expand e
    s.concludeAccept payload resolved expanded
  | none => s.concludeAccept payload resolved false

/-- Asks for the missing parts of an accepted item. -/
def sendResolve (s : Session) (payload : Payload) (expansion : Option Expansion) : Session :=
  let (s, number) := s.send payload.server .resolve payload.item.encode
  let s := s.log .debug "accept" "Resolving accepted item"
    [("server", .str payload.server.display), ("label", .str payload.item.label)]
  { s with resolve := some { number, payload, expansion, tick := s.buffer.tick } }

/-- Gives up the item whose missing parts are being asked for. -/
def supersedeResolve (s : Session) : Session :=
  match s.resolve with
  | some pending =>
    { s.log .debug "accept" "Superseding pending resolve" with resolve := none }.cancel
      pending.number
  | none => s

/-- Makes room for the snippet of an item that is to be expanded. -/
def prepareExpansion (s : Session) (expand : Bool) (m : Match) : Session × Option Expansion :=
  match m.item.replacementText.filter fun _ => expand && m.item.isSnippet with
  | none => (s, none)
  | some template =>
    if s.availableEngine?.isSome then
      let (s, e) := s.removeInsertedWord m.word template
      (s, some e)
    else (s.report .warning s!"No snippet engine available to expand {m.item.label}", none)

/-- Applies the further edits of an accepted item, or asks for them, if its server offers that. -/
def supplyEdits (s : Session) (m : Match) (expansion : Option Expansion) : Session :=
  match m.item.additionalTextEdits.getD [] with
  | edit :: edits => (s.applyEdits m.server (edit :: edits)).finishAccept m.payload none expansion
  | [] =>
    if ((s.bindings.find? m.server).map (·.resolves)).getD false then
      s.sendResolve m.payload expansion
    else s.finishAccept m.payload none expansion

/-- An entry of the popup was accepted. -/
def acceptMatch (s : Session) (m : Match) : Session :=
  let (t, expansion) := (s.reset .accepted).supersedeResolve.prepareExpansion s.expandSnippet m
  t.supplyEdits m expansion

/-- The popup closed, with an entry that was accepted or without. -/
def completeDone (s : Session) (selected : Option Match) : Session :=
  if s.suppressDone then
    { s with suppressDone := false }.log .trace "accept" "Popup replaced by fresh results"
  else match selected with
    | none => s.reset .dismissed
    | some m => s.acceptMatch m

/-- Applies what a resolved item brings. Its edits are only good for the buffer as it was when they
were asked for. Returns the resolved command. -/
def applyResolved (s : Session) (pending : PendingResolve) (reply : Reply) :
    Session × Option Command :=
  let server := pending.payload.server
  match reply with
  | .ok value =>
    match Item.decode value with
    | .ok item =>
      let s := match item.additionalTextEdits.getD [] with
        | [] => s.log .trace "accept" "Resolved item carries no additional edits"
        | edits =>
          if s.buffer.tick = pending.tick then s.applyEdits server edits
          else s.log .debug "accept" "Buffer changed while resolving, dropping edits"
            [("server", .str server.display)]
      (s, item.command)
    | .error e =>
      (s.report .warning s!"Invalid resolve response from {server.display}: {e.message}", none)
  | .error e =>
    if e.isCancelled then (s, none)
    else (s.report .warning
      s!"Failed to resolve completion item on {server.display}: {e.message}", none)

/-- Takes the missing parts of an accepted item. -/
def takeResolved (s : Session) (reply : Reply) : Session :=
  match s.resolve with
  | some pending =>
    let (s, command) := { s with resolve := none }.applyResolved pending reply
    s.finishAccept pending.payload command pending.expansion
  | none => s

end Autocomplete.Session

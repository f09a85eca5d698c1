import Autocomplete.Command
import Autocomplete.Config
import Autocomplete.Text.Encoding

/-!
Bindings: what one attached server can do for the edited text, as far as the session uses it.
-/
namespace Autocomplete
open Text

structure CompletionProvider where
  triggerCharacters : List String := []
  resolves : Bool := false

structure SignatureProvider where
  triggerCharacters : List String := []
  retriggerCharacters : List String := []

/-- What a server announces. -/
structure Capabilities where
  positionEncoding : Option String := none
  completion : Option CompletionProvider := none
  signatureHelp : Option SignatureProvider := none
  commands : List String := []
  deriving Inhabited

namespace Capabilities

def decodeCompletion : Decoder CompletionProvider := fun v => do
  let fs ← Decoder.fields "CompletionOptions" v
  return { triggerCharacters :=
             (← fs.optional "triggerCharacters" (Decoder.list Decoder.string)).getD []
           resolves := (← fs.optional "resolveProvider" Decoder.bool).getD false }

def decodeSignatureHelp : Decoder SignatureProvider := fun v => do
  let fs ← Decoder.fields "SignatureHelpOptions" v
  return { triggerCharacters :=
             (← fs.optional "triggerCharacters" (Decoder.list Decoder.string)).getD []
           retriggerCharacters :=
             (← fs.optional "retriggerCharacters" (Decoder.list Decoder.string)).getD [] }

def decodeCommands : Decoder (List String) := fun v => do
  let fs ← Decoder.fields "ExecuteCommandOptions" v
  return (← fs.optional "commands" (Decoder.list Decoder.string)).getD []

def decode : Decoder Capabilities := fun v => do
  let fs ← Decoder.fields "ServerCapabilities" v
  return { positionEncoding := ← fs.optional "positionEncoding" Decoder.string
           completion := ← fs.optional "completionProvider" decodeCompletion
           signatureHelp := ← fs.optional "signatureHelpProvider" decodeSignatureHelp
           commands := (← fs.optional "executeCommandProvider" decodeCommands).getD [] }

end Capabilities

/-- An attached server. -/
structure Binding where
  server : ServerId
  encoding : Encoding
  /-- The server filters by itself. -/
  fuzzy : Bool
  completes : Bool
  resolves : Bool
  triggerCharacters : List Char
  helps : Bool
  signatureCharacters : List Char
  /-- The commands that the server runs, in order and without repetition. -/
  commands : List String
  leading : Duration
  subsequent : Option Duration
  localCommands : Registry
  deriving Inhabited

namespace Binding

/-- Adds the characters that are not there yet. -/
def extendCharacters (characters more : List Char) : List Char :=
  more.foldl (fun acc c => if acc.contains c then acc else acc ++ [c]) characters

/-- Of each trigger the last character counts, since that is the one just typed; repetitions are
dropped. -/
def lastCharacters (triggers : List String) : List Char :=
  extendCharacters [] (triggers.filterMap fun t => t.toList.getLast?)

def ofCapabilities (server : ServerId) (capabilities : Capabilities) (options : AttachOptions)
    (config : Config) : Binding :=
  let signature := capabilities.signatureHelp.getD {}
  let completion := capabilities.completion.getD {}
  { server
    encoding := .negotiated capabilities.positionEncoding
    fuzzy := options.fuzzyIn config
    completes := capabilities.completion.isSome
    resolves := completion.resolves
    triggerCharacters := lastCharacters completion.triggerCharacters
    helps := capabilities.signatureHelp.isSome
    signatureCharacters := extendCharacters (lastCharacters signature.triggerCharacters)
      (lastCharacters signature.retriggerCharacters)
    commands := (Table.ofList (capabilities.commands.map (·, ()))).keys
    leading := options.leading config
    subsequent := options.subsequent config
    localCommands := Table.empty }

def isTrigger (b : Binding) (c : Char) : Bool := b.completes && b.triggerCharacters.contains c

def isSignatureTrigger (b : Binding) (c : Char) : Bool :=
  b.helps && b.signatureCharacters.contains c

def supports (b : Binding) (command : String) : Bool := b.commands.contains command

/-- How diagnostics name an encoding. -/
def encodingLabel : Encoding → String
  | .utf8 => "Utf8"
  | .utf16 => "Utf16"
  | .utf32 => "Utf32"

def display (b : Binding) : String :=
  let characters (cs : List Char) := bracketed (cs.map quotedChar)
  "ClientBinding \x7b " ++ ", ".intercalate [
    s!"server: ServerId({b.server.index})",
    s!"encoding: {encodingLabel b.encoding}",
    s!"fuzzy: {b.fuzzy}",
    s!"resolve_provider: {b.resolves}",
    s!"trigger_characters: {characters b.triggerCharacters}",
    s!"signature_trigger_characters: {characters b.signatureCharacters}",
    "commands: \x7b" ++ ", ".intercalate (b.commands.map quoted) ++ "\x7d",
    s!"local_commands: {b.localCommands.size}"] ++ " \x7d"

def encode (b : Binding) : Json :=
  let characters (cs : List Char) := Json.arr (cs.map fun c => .str c.toString)
  .ofFields [("server", .ofNat b.server.index), ("encoding", .str b.encoding.name),
    ("fuzzy", .bool b.fuzzy), ("resolve_provider", .bool b.resolves),
    ("completion_provider", .bool b.completes),
    ("trigger_characters", characters b.triggerCharacters),
    ("signature_help_provider", .bool b.helps),
    ("signature_trigger_characters", characters b.signatureCharacters),
    ("commands", .arr (b.commands.map .str)),
    ("leading_debounce_ms", .ofNat b.leading.milliseconds),
    ("subsequent_debounce_ms", (b.subsequent.map fun d => .ofNat d.milliseconds).getD .null)]

end Binding
end Autocomplete

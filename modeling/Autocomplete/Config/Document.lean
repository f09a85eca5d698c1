import Autocomplete.Config
import Autocomplete.Toml.Reader

/-!
Settings read from a TOML document. A setting that is missing has its default, and unknown ones do not
matter.
-/
namespace Autocomplete

namespace Toml

/-- A value of the form that was asked for, or nothing. -/
abbrev Getter (α : Type) := Value → Option α

def getBool : Getter Bool
  | .boolean b => some b
  | _ => none

def getString : Getter String
  | .string s => some s
  | _ => none

def getNat : Getter Nat
  | .integer n => if 0 ≤ n then some n.toNat else none
  | _ => none

/-- The value of a key that may be missing; a value that does not fit is a failure. -/
def Entries.get {α : Type} (entries : Entries) (key : String) (getter : Getter α) (other : α) :
    Option α :=
  match Entries.find? key entries with
  | some v => getter v
  | none => some other

end Toml

namespace Config

def ofEntries? (es : Toml.Entries) : Option Config := do
  let base : Config := {}
  let leadingMs ← es.get "leading_debounce_ms" Toml.getNat base.leadingMs
  let subsequentMs ← es.get "subsequent_debounce_ms" (fun v => (Toml.getNat v).map some)
    base.subsequentMs
  let fuzzy ← es.get "server_side_fuzzy_completion" Toml.getBool base.fuzzy
  let triggerOnDelete ← es.get "trigger_on_delete" Toml.getBool base.triggerOnDelete
  let deleteMs ← es.get "delete_retrigger_ms" Toml.getNat base.deleteMs
  let signatureHelp ← es.get "signature_help" Toml.getBool base.signatureHelp
  return { leadingMs, subsequentMs, fuzzy, triggerOnDelete, deleteMs, signatureHelp }

/-- Why there are no settings in a document. -/
inductive DocumentError where
  /-- It is no TOML, or a setting has the wrong type. -/
  | malformed
  | excessive (e : ExcessiveWindow)
  deriving DecidableEq, Repr

def DocumentError.message : DocumentError → String
  | .malformed => "Failed to parse completion config TOML"
  | .excessive e => e.message

/-- Reads and checks settings. -/
def parse (text : String) : Except DocumentError Config :=
  match (Toml.parse? text).bind ofEntries? with
  | none => .error .malformed
  | some c =>
    match c.validate with
    | .ok _ => .ok c
    | .error e => .error (.excessive e)

/-- Why there are no settings in a file. -/
inductive FileError where
  | missing (path : String)
  | invalid (path : String) (e : DocumentError)
  deriving DecidableEq, Repr

def FileError.message : FileError → String
  | .missing path => s!"Failed to read completion config: {path}"
  | .invalid path _ => s!"Invalid completion config: {path}"

/-- Reads settings from a file, of which the text is given if it is there. -/
def load (path : String) (text : Option String) : Except FileError Config :=
  match text with
  | none => .error (.missing path)
  | some text =>
    match parse text with
    | .ok c => .ok c
    | .error e => .error (.invalid path e)

end Config
end Autocomplete

import Autocomplete.Logging.Config

/-!
Settings for logging read from a TOML document.
-/
namespace Autocomplete
namespace LoggingConfig
open Toml (Getter)

def getLevel : Getter Level := fun v => (Toml.getString v).bind Level.ofName?

/-- A rotation is named by a text, or as the one key of a table without any content. -/
def getRotation : Getter Rotation
  | .string s => Rotation.ofName? s
  | .table _ [(name, .table _ [])] => Rotation.ofName? name
  | .table _ [(name, .array [])] => Rotation.ofName? name
  | _ => none

/-- The item of a list at an index; a list that is too short leaves the default. -/
def item {α : Type} (items : List Toml.Value) (index : Nat) (getter : Getter α) (other : α) :
    Option α :=
  match items[index]? with
  | some v => getter v
  | none => some other

/-- An output is a table or the list of its values; a time has none of its settings. -/
def getOutput (base : LogOutput) : Getter LogOutput
  | .table _ es => do
    let console ← Toml.Entries.get es "console" Toml.getBool base.console
    let file ← Toml.Entries.get es "file" Toml.getBool base.file
    let json ← Toml.Entries.get es "json" Toml.getBool base.json
    return { console, file, json }
  | .array vs => do
    let console ← item vs 0 Toml.getBool base.console
    let file ← item vs 1 Toml.getBool base.file
    let json ← item vs 2 Toml.getBool base.json
    return { console, file, json }
  | .datetime => some base
  | _ => none

/-- A file is a table or the list of its values; a time has none of its settings. -/
def getFile (base : LogFile) : Getter LogFile
  | .table _ es => do
    let path ← Toml.Entries.get es "path" Toml.getString base.path
    let rotation ← Toml.Entries.get es "rotation" getRotation base.rotation
    return { path, rotation }
  | .array vs => do
    let path ← item vs 0 Toml.getString base.path
    let rotation ← item vs 1 getRotation base.rotation
    return { path, rotation }
  | .datetime => some base
  | _ => none

def getLevels : Toml.Entries → Option (List (String × Level))
  | [] => some []
  | (name, v) :: rest => do
    let level ← getLevel v
    return (name, level) :: (← getLevels rest)

def getModuleLevels : Getter (Table String Level)
  | .table _ es => (getLevels es).map Table.ofList
  | _ => none

def ofEntries? (base : LoggingConfig) (es : Toml.Entries) : Option LoggingConfig := do
  let level ← es.get "level" getLevel base.level
  let moduleLevels ← es.get "module_levels" getModuleLevels base.moduleLevels
  let output ← es.get "output" (getOutput base.output) base.output
  let file ← es.get "file" (getFile base.file) base.file
  return { level, moduleLevels, output, file }

/-- Why there are no settings in a file. -/
inductive FileError where
  | missing (path : String)
  | malformed (path : String)
  deriving DecidableEq, Repr

def FileError.message : FileError → String
  | .missing path => s!"Failed to read logging config: {path}"
  | .malformed path => s!"Failed to parse logging config: {path}"

/-- Reads settings from a file, of which the text is given if it is there. -/
def load (base : LoggingConfig) (path : String) (text : Option String) :
    Except FileError LoggingConfig :=
  match text with
  | none => .error (.missing path)
  | some text =>
    match (Toml.parse? text).bind (ofEntries? base) with
    | some c => .ok c
    | none => .error (.malformed path)

end LoggingConfig
end Autocomplete

import Autocomplete.Config.Document
import Autocomplete.Json.Decode
import Autocomplete.Logging.Level

/-!
Settings for logging: the level of importance below which nothing is logged, levels for single
modules, and where the log goes.
-/
namespace Autocomplete

/-- How often a new log file is started. -/
inductive Rotation where
  | daily | hourly | never
  deriving DecidableEq, Repr, Inhabited

namespace Rotation

def name : Rotation → String
  | .daily => "daily"
  | .hourly => "hourly"
  | .never => "never"

def ofName? : String → Option Rotation
  | "daily" => some .daily
  | "hourly" => some .hourly
  | "never" => some .never
  | _ => none

end Rotation

structure LogOutput where
  console : Bool := false
  file : Bool := true
  /-- The file is written as lines of JSON. -/
  json : Bool := false
  deriving DecidableEq, Repr, Inhabited

structure LogFile where
  path : String
  rotation : Rotation := .daily
  deriving DecidableEq, Repr, Inhabited

structure LoggingConfig where
  level : Level := .info
  /-- Levels of modules, which count for all that is inside them. -/
  moduleLevels : Table String Level := Table.empty
  output : LogOutput := {}
  file : LogFile

/-- Why a level cannot be read. -/
structure InvalidLevel where
  text : String
  deriving DecidableEq, Repr, Inhabited

def InvalidLevel.message (e : InvalidLevel) : String :=
  s!"Invalid log level: {e.text}. Must be one of: trace, debug, info, warn, error"

def Level.parse (text : String) : Except InvalidLevel Level :=
  match Level.ofName? text with
  | some level => .ok level
  | none => .error ⟨text⟩

namespace LoggingConfig

/-- The settings without any file; the log file is in a directory for caches. -/
def default (cacheDir : String) : LoggingConfig := { file := { path := cacheDir ++ "/quill/quill.log" } }

/-- The levels as directives: the general one, and then those of modules in order of their names. -/
def directives (c : LoggingConfig) : String :=
  ",".intercalate (c.level.name :: c.moduleLevels.entries.map fun e => s!"{e.1}={e.2.name}")

def encode (c : LoggingConfig) : Json :=
  .ofFields [("level", .str c.level.name),
    ("module_levels", .ofFields (c.moduleLevels.entries.map fun e => (e.1, .str e.2.name))),
    ("output", .ofFields [("console", .bool c.output.console), ("file", .bool c.output.file),
      ("json", .bool c.output.json)]),
    ("file", .ofFields [("path", .str c.file.path), ("rotation", .str c.file.rotation.name)])]

def decodeLevel : Decoder Level := fun v => do
  match Level.ofName? (← Decoder.string v) with
  | some level => .ok level
  | none => .error (.invalidType v "a level")

def decodeRotation : Decoder Rotation := fun v => do
  match Rotation.ofName? (← Decoder.name v) with
  | some r => .ok r
  | none => .error (.invalidType v "a rotation")

def decodeOutput : Decoder LogOutput := fun v => do
  let fs ← Decoder.fields "OutputConfig" v
  let base : LogOutput := {}
  return { console := (← fs.optional "console" Decoder.bool).getD base.console
           file := (← fs.optional "file" Decoder.bool).getD base.file
           json := (← fs.optional "json" Decoder.bool).getD base.json }

def decodeFile (base : LogFile) : Decoder LogFile := fun v => do
  let fs ← Decoder.fields "FileConfig" v
  return { path := (← fs.optional "path" Decoder.string).getD base.path
           rotation := (← fs.optional "rotation" decodeRotation).getD base.rotation }

/-- The pairs of an object whose values are all of one type. -/
def decodePairs {α : Type} (d : Decoder α) : Fields → Except DecodeError (List (String × α))
  | [] => .ok []
  | (name, v) :: rest => do
    let first ← d v
    return (name, first) :: (← decodePairs d rest)

def decodeModuleLevels : Decoder (Table String Level) := fun v => do
  return Table.ofList (← decodePairs decodeLevel (← Decoder.fields "module_levels" v))

/-- What is missing is as in the given settings. -/
def decode (base : LoggingConfig) : Decoder LoggingConfig := fun v => do
  let fs ← Decoder.fields "LoggingConfig" v
  return { level := (← fs.optional "level" decodeLevel).getD base.level
           moduleLevels :=
             (← fs.optional "module_levels" decodeModuleLevels).getD base.moduleLevels
           output := (← fs.optional "output" decodeOutput).getD base.output
           file := (← fs.optional "file" (decodeFile base.file)).getD base.file }

end LoggingConfig
end Autocomplete

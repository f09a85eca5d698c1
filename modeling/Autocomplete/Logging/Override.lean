import Autocomplete.Logging.Config
import Autocomplete.Text.Split

/-!
Overriding the settings for logging by variables of the environment. Directives are taken one after
the other, and those before a bad one stay in force.
-/
namespace Autocomplete

/-- Why the settings cannot be overridden. -/
inductive OverrideError where
  | level (e : InvalidLevel)
  | moduleLevel (module : String) (e : InvalidLevel)
  | globalLevel (e : InvalidLevel)
  deriving DecidableEq, Repr

namespace OverrideError

/-- The level that cannot be read. -/
def cause : OverrideError → InvalidLevel
  | .level e => e
  | .moduleLevel _ e => e
  | .globalLevel e => e

def context : OverrideError → String
  | .level _ => "Invalid QUILL_LOG level"
  | .moduleLevel module e => s!"Invalid log level '{e.text}' for module '{module}'"
  | .globalLevel e => s!"Invalid global log level '{e.text}'"

/-- What failed together with its cause. -/
def message (e : OverrideError) : String := s!"{e.context}: {e.cause.message}"

end OverrideError

/-- One directive. -/
inductive Directive where
  | module (name level : String)
  | global (level : String)
  deriving DecidableEq, Repr

namespace Directive

/-- The directive in a text without blanks at its ends; an empty text holds none. -/
def ofChars? (cs : List Char) : Option Directive :=
  match cs, cs.span (· != '=') with
  | [], _ => none
  | _, (name, _ :: level) => some (.module (String.ofList name) (String.ofList level))
  | _, (level, []) => some (.global (String.ofList level))

/-- The directives in a text, with commas between them. -/
def parseAll (text : String) : List Directive :=
  (Text.splitAtEach ',' text.toList).filterMap fun part => ofChars? (Text.trim part)

end Directive

namespace LoggingConfig

def applyDirective (c : LoggingConfig) : Directive → Except OverrideError LoggingConfig
  | .module name text =>
    match Level.parse text with
    | .ok level => .ok { c with moduleLevels := c.moduleLevels.insert name level }
    | .error e => .error (.moduleLevel name e)
  | .global text =>
    match Level.parse text with
    | .ok level => .ok { c with level }
    | .error e => .error (.globalLevel e)

/-- Takes directives up to the first bad one. -/
def applyDirectives (c : LoggingConfig) : List Directive → LoggingConfig × Option OverrideError
  | [] => (c, none)
  | d :: rest =>
    match c.applyDirective d with
    | .ok c => applyDirectives c rest
    | .error e => (c, some e)

/-- Overrides the levels: a level for all modules comes before directives. -/
def overrideLevels (c : LoggingConfig) (lookup : String → Option String) :
    LoggingConfig × Option OverrideError :=
  match lookup "QUILL_LOG" with
  | some text =>
    match Level.parse text with
    | .ok level => ({ c with level }, none)
    | .error e => (c, some (.level e))
  | none =>
    match lookup "RUST_LOG" with
    | some text => c.applyDirectives (Directive.parseAll text)
    | none => (c, none)

/-- Overrides the outputs; here a variable only has to be there. -/
def overrideOutput (o : LogOutput) (lookup : String → Option String) : LogOutput :=
  { console := o.console && (lookup "QUILL_LOG_NO_CONSOLE").isNone
    file := o.file && (lookup "QUILL_LOG_NO_FILE").isNone
    json := o.json || (lookup "QUILL_LOG_JSON").isSome }

/-- Overrides settings by variables. The outputs are left alone if a level cannot be read. -/
def override (c : LoggingConfig) (lookup : String → Option String) :
    LoggingConfig × Option OverrideError :=
  match c.overrideLevels lookup with
  | (c, none) => ({ c with output := overrideOutput c.output lookup }, none)
  | (c, some e) => (c, some e)

end LoggingConfig
end Autocomplete

import Autocomplete.Duration
import Autocomplete.Logging.File
import Autocomplete.Logging.Filter
import Autocomplete.Logging.Override

/-!
Installing a logger, which is possible once, and what then arrives where. All sinks share one filter;
the console shows text, the file text or JSON, and without a file JSON goes to the standard output.
-/
namespace Autocomplete

/-- Why a logger cannot be installed. -/
inductive InstallError where
  | override (e : OverrideError)
  | directives
  | directory (path : String)
  | fileName
  | alreadyInstalled
  deriving DecidableEq, Repr

def InstallError.message : InstallError → String
  | .override e => e.context
  | .directives => "Invalid log filter directives"
  | .directory path => s!"Failed to create log directory: {path}"
  | .fileName => "Invalid log file path"
  | .alreadyInstalled => "A global tracing subscriber is already installed"

/-- Something to be logged. -/
inductive LogAction where
  | record (target : String) (level : Level) (message : String)
  /-- An operation that is timed, and how long it may take without a warning. -/
  | timed (elapsed : Duration) (threshold : Option Duration)

/-- What arrives at a sink. -/
inductive LogLine where
  | text (level : Level) (message : String)
  | json (level : Level) (target message : String)
  deriving DecidableEq, Repr

/-- What arrives at the sinks if the filter lets it through: a record, or the end of a span. -/
structure LogEntry where
  source : LogSource
  message : String

namespace LogEntry

def textLine (e : LogEntry) : LogLine := .text e.source.level e.message

def jsonLine (e : LogEntry) : LogLine := .json e.source.level e.source.target e.message

/-- The first thing that an installed logger logs. -/
def installed : LogEntry :=
  ⟨{ target := "quill_logging::subscriber", level := .info
     fields := ["message", "log_level", "console_output", "file_output", "json_output", "file_path"] },
    "Quill logging initialized"⟩

def timerTarget : String := "quill_logging::performance"

def slow : LogEntry :=
  ⟨{ target := timerTarget, level := .warn
     fields := ["message", "operation", "elapsed_ms", "threshold_ms"] }, "Slow operation detected"⟩

/-- The end of the span in which an operation is timed. -/
def timed : LogEntry :=
  ⟨{ target := timerTarget, level := .debug, span := some "perf_timer"
     fields := ["operation", "elapsed_ms"] }, "close"⟩

end LogEntry

namespace LogAction

/-- What is logged for an action. -/
def entries : LogAction → List LogEntry
  | .record target level message => [⟨{ target, level, fields := ["message"] }, message⟩]
  | .timed elapsed threshold =>
    if threshold.any (· < elapsed) then [.slow, .timed] else [.timed]

end LogAction

/-- What arrives at each sink. -/
structure LogOutputs where
  stdout : List LogLine
  stderr : List LogLine
  file : List LogLine

namespace LoggingConfig

/-- The filter of a logger that can be installed, given a plain file in its directory. -/
def install (c : LoggingConfig) (occupied : Option String) : Except InstallError LogFilter :=
  match LogFilter.parse? c.directives with
  | none => .error .directives
  | some filter =>
    if !c.output.file then .ok filter
    else if c.file.isBlocked occupied then .error (.directory c.file.directory)
    else if c.file.name?.isNone then .error .fileName
    else .ok filter

/-- What arrives at the sinks of an installed logger. The ends of spans are not shown on the
console. -/
def outputs (c : LoggingConfig) (filter : LogFilter) (actions : List LogAction) : LogOutputs :=
  let all := (.installed :: actions.flatMap LogAction.entries).filter fun e => filter.passes e.source
  { stdout := if c.output.json && !c.output.file then all.map LogEntry.jsonLine else []
    stderr := if c.output.console then
        (all.filter fun e => e.source.span.isNone).map LogEntry.textLine else []
    file := if c.output.file then
        all.map (if c.output.json then LogEntry.jsonLine else LogEntry.textLine) else [] }

end LoggingConfig
end Autocomplete

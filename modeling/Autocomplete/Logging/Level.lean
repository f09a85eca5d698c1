/-!
Levels of importance, from `trace` up to `error`.
-/
namespace Autocomplete

inductive Level where
  | trace | debug | info | warn | error
  deriving DecidableEq, Repr, Inhabited

namespace Level

/-- The place among the levels; more important ones are greater. -/
def rank : Level → Nat
  | .trace => 0
  | .debug => 1
  | .info => 2
  | .warn => 3
  | .error => 4

/-- The name in configuration files and directives. -/
def name : Level → String
  | .trace => "trace"
  | .debug => "debug"
  | .info => "info"
  | .warn => "warn"
  | .error => "error"

/-- The name in log records. -/
def label : Level → String
  | .trace => "TRACE"
  | .debug => "DEBUG"
  | .info => "INFO"
  | .warn => "WARN"
  | .error => "ERROR"

/-- Reads a name in whatever case. -/
def ofName? (s : String) : Option Level :=
  match (String.ofList (s.toList.map Char.toLower)) with
  | "trace" => some .trace
  | "debug" => some .debug
  | "info" => some .info
  | "warn" => some .warn
  | "warning" => some .warn
  | "error" => some .error
  | _ => none

theorem ofName?_name (l : Level) : ofName? l.name = some l := by cases l <;> rfl

end Level
end Autocomplete

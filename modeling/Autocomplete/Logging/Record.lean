import Autocomplete.Json
import Autocomplete.Logging.Level

/-!
Log records: what happened, how important it is, which part of the program says so, and the values
that go with it.
-/
namespace Autocomplete

structure LogRecord where
  level : Level
  target : String
  message : String
  fields : List (String × Json) := []
  deriving Inhabited

end Autocomplete

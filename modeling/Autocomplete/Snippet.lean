import Autocomplete.Text.Columns

/-!
Text inside snippets. Of literal text, the characters that a snippet engine would read as its own
follow a backslash. An `Expansion` is what was taken out of the buffer to make room for a snippet.
-/
namespace Autocomplete.Snippet

/-- Backslashes, dollar signs and closing braces mean something in a snippet. -/
def isSpecial (c : Char) : Bool := c == '\\' || c == '$' || c == '\x7d'

/-- A text that a snippet engine puts in as it is. -/
def escape (text : List Char) : List Char :=
  text.flatMap fun c => if isSpecial c then ['\\', c] else [c]

/-- Drops each backslash that escapes the character after it. -/
def unescape : List Char → List Char
  | '\\' :: c :: rest => c :: unescape rest
  | c :: rest => c :: unescape rest
  | [] => []

theorem escape_append (a b : List Char) : escape (a ++ b) = escape a ++ escape b :=
  List.flatMap_append

theorem unescape_cons {c : Char} (h : c ≠ '\\') (rest : List Char) :
    unescape (c :: rest) = c :: unescape rest := by
  rw [unescape]
  exact fun d _ hc _ => h hc

/-- What was escaped reads as it was. -/
theorem unescape_escape (text : List Char) : unescape (escape text) = text := by
  induction text with
  | nil => rfl
  | cons c rest ih =>
    rw [show c :: rest = [c] ++ rest from rfl, escape_append]
    by_cases h : isSpecial c
    · rw [show escape [c] = ['\\', c] by simp [escape, h]]
      exact congrArg (c :: ·) ih
    · have hc : c ≠ '\\' := fun hc => h (by simp [isSpecial, hc])
      rw [show escape [c] = [c] by simp [escape, h]]
      simp [unescape_cons hc, ih]

end Autocomplete.Snippet

namespace Autocomplete
open Text

/-- What was taken out of the buffer to make room for a snippet. -/
structure Expansion where
  template : String
  /-- The word that had been put in. -/
  word : Line
  /-- What followed it on its line. -/
  suffix : Line

namespace Expansion

/-- The snippet that is handed to an engine: what followed the word is kept as literal text. -/
def snippet (e : Expansion) : String := e.template ++ String.ofList (Snippet.escape e.suffix)

/-- The text that was in the buffer. -/
def literal (e : Expansion) : Line := e.word ++ e.suffix

end Expansion
end Autocomplete

import Autocomplete.Text.Classes

/-!
Splitting a text at every place where a character stands, and trimming it.
-/
namespace Autocomplete.Text

/-- The parts of a text between the places where a character stands; there is always one. -/
def splitAtEach (separator : Char) : List Char → List (List Char)
  | [] => [[]]
  | c :: rest =>
    if c = separator then [] :: splitAtEach separator rest
    else match splitAtEach separator rest with
      | [] => [[c]]
      | part :: others => (c :: part) :: others

theorem splitAtEach_ne_nil (separator : Char) (text : List Char) :
    splitAtEach separator text ≠ [] := by
  cases text with
  | nil => simp [splitAtEach]
  | cons c rest =>
    by_cases h : c = separator
    · simp [splitAtEach, h]
    · simp only [splitAtEach, h, if_false]
      split <;> simp

/-- Removes the blanks at both ends. -/
def trim (cs : List Char) : List Char :=
  ((cs.dropWhile isBlank).reverse.dropWhile isBlank).reverse

end Autocomplete.Text

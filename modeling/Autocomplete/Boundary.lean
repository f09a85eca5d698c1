import Autocomplete.Item
import Autocomplete.Text.Classes

/-!
Where the replaced text starts: the editor's own guess, the start of the identifier at the cursor,
and the start on which the edits of a server agree.
-/
namespace Autocomplete
open Text

/-- The byte column where the identifier left of the cursor starts. -/
def naiveStart (line : Line) (cursor : Nat) : Nat :=
  byteLength ((takeBytes line cursor).reverse.dropWhile isIdentifier)

/-- The character at which all ranges on a line start. There is none if no range starts on the line,
if two of them start apart, or if one starts after the column of its end. -/
def agreedCharacter (lineNumber : Nat) (ranges : List Range) : Option Nat :=
  match ranges.filter (·.start.line == lineNumber) with
  | [] => none
  | first :: rest =>
    if (first :: rest).all fun r =>
        r.start.character ≤ r.stop.character && r.start.character == first.start.character
    then some first.start.character else none

/-- The byte column at which the edits of a server's items start. -/
def resolveStart (lineNumber : Nat) (line : Line) (items : List Item) (encoding : Encoding) :
    Option Nat :=
  (agreedCharacter lineNumber (items.filterMap Item.editRange)).map (encoding.byteColumn line)

end Autocomplete

import Autocomplete.Position
import Autocomplete.Text.Split

/-!
The edited text. `Buffer.replace` puts a text in place of the one between two cursors; the buffer's
own cursor moves with the text around it.
-/
namespace Autocomplete
open Text

structure Buffer where
  lines : List Line
  cursor : Cursor
  /-- Counts the edits, starting with one. -/
  tick : Nat := 1
  /-- Text is typed into the buffer. -/
  inserting : Bool := true
  deriving Inhabited

/-- The lines of a text with line breaks; there is always at least one. -/
def splitLines (text : List Char) : List Line := splitAtEach '\n' text

/-- The place where a text ends that is put in at a given place. -/
def Cursor.after (start : Cursor) (text : List Char) : Cursor :=
  match (splitLines text).reverse with
  | [] => start
  | [line] => ⟨start.line, start.column + byteLength line⟩
  | line :: others => ⟨start.line + others.length, byteLength line⟩

namespace Buffer

def line? (b : Buffer) (n : Nat) : Option Line := b.lines[n]?

/-- The text of a line; one that does not exist is empty. -/
def line (b : Buffer) (n : Nat) : Line := (b.line? n).getD []

def currentLine (b : Buffer) : Line := b.line b.cursor.line

/-- The nearest place in the text that is not after the given one, or the end of the text if that
place is on none of its lines. -/
def clamp (b : Buffer) (c : Cursor) : Cursor :=
  if c.line < b.lines.length then ⟨c.line, floorColumn (b.line c.line) c.column⟩
  else
    let last := b.lines.length - 1
    ⟨last, byteLength (b.line last)⟩

/-- Where a cursor is after the text between `start` and `stop` was replaced by one that ends at
`inserted`: behind the edit it moves with the text, inside it goes to the end of the new text. -/
def moveCursor (start stop inserted cursor : Cursor) : Cursor :=
  if cursor.before stop then
    if start.before cursor then inserted else cursor
  else if cursor.line = stop.line then
    ⟨inserted.line, inserted.column + (cursor.column - stop.column)⟩
  else ⟨inserted.line + (cursor.line - stop.line), cursor.column⟩

/-- Puts a text in place of the one from `start` to `stop`. Both ends are moved into the text first,
and an end before the start counts as the start. -/
def replace (b : Buffer) (start stop : Cursor) (text : List Char) : Buffer :=
  let start := b.clamp start
  let stop := if (b.clamp stop).before start then start else b.clamp stop
  let first := takeBytes (b.line start.line) start.column
  let last := dropBytes (b.line stop.line) stop.column
  { b with
    lines := b.lines.take start.line ++ splitLines (first ++ text ++ last) ++
      b.lines.drop (stop.line + 1)
    cursor := moveCursor start stop (start.after text) b.cursor
    tick := b.tick + 1 }

end Buffer
end Autocomplete

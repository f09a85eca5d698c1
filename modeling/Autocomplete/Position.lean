import Autocomplete.Json.Decode
import Autocomplete.Text.Encoding

/-!
Places in a document: a cursor counts columns in bytes, a position counts characters in the code
units of the server that it is exchanged with.
-/
namespace Autocomplete
open Text

/-- A place in the edited text; both numbers count from zero and the column counts bytes. -/
structure Cursor where
  line : Nat
  column : Nat
  deriving DecidableEq, Repr, Inhabited

namespace Cursor

/-- Whether a place lies before another one in reading order. -/
def before (a b : Cursor) : Bool := a.line < b.line || a.line == b.line && a.column < b.column

end Cursor

/-- A place as a server gives it. -/
structure Position where
  line : Nat
  character : Nat
  deriving DecidableEq, Repr, Inhabited

namespace Position

/-- The position of a cursor on a line with the given text. -/
def ofCursor (encoding : Encoding) (text : Line) (cursor : Cursor) : Position :=
  ⟨cursor.line, encoding.characterOffset text cursor.column⟩

/-- The cursor of a position on a line with the given text. -/
def toCursor (encoding : Encoding) (text : Line) (position : Position) : Cursor :=
  ⟨position.line, encoding.byteColumn text position.character⟩

def decode : Decoder Position :=
  Decoder.pair "Position" "line" "character" Decoder.nat32 Decoder.nat32 Position.mk

def encode (p : Position) : Json :=
  .ofFields [("line", .ofNat p.line), ("character", .ofNat p.character)]

end Position

/-- The text from `start` up to `stop`. -/
structure Range where
  start : Position
  stop : Position
  deriving DecidableEq, Repr, Inhabited

namespace Range

def decode : Decoder Range :=
  Decoder.pair "Range" "start" "end" Position.decode Position.decode Range.mk

def encode (r : Range) : Json := .ofFields [("start", r.start.encode), ("end", r.stop.encode)]

end Range
end Autocomplete

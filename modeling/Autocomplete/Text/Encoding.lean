import Autocomplete.Text.Columns

/-!
The code units in which a server counts the characters of a line, and the conversion between their
offsets and byte columns.
-/
namespace Autocomplete

/-- The code unit of a server's character offsets. -/
inductive Encoding where
  | utf8 | utf16 | utf32
  deriving DecidableEq, Repr, Inhabited

namespace Encoding
open Text

def name : Encoding → String
  | .utf8 => "utf-8"
  | .utf16 => "utf-16"
  | .utf32 => "utf-32"

/-- What a server announces; all that is unknown or missing stands for UTF-16, which every server
has to support. -/
def negotiated : Option String → Encoding
  | some "utf-8" => .utf8
  | some "utf-32" => .utf32
  | _ => .utf16

/-- The number of code units of a character. -/
def width (encoding : Encoding) (c : Char) : Nat :=
  match encoding with
  | .utf8 => c.utf8Size
  | .utf16 => if c.val < 0x10000 then 1 else 2
  | .utf32 => 1

/-- The length of a text in code units. -/
def length (encoding : Encoding) : Line → Nat
  | [] => 0
  | c :: line => encoding.width c + encoding.length line

/-- The bytes of the shortest initial part that has at least `n` code units, or of the whole line. -/
def bytesCovering (encoding : Encoding) : Line → Nat → Nat
  | [], _ => 0
  | c :: line, n =>
    if n = 0 then 0 else c.utf8Size + encoding.bytesCovering line (n - encoding.width c)

/-- The byte column of a character offset. An offset past the end stands for the end; one inside a
character stands for its start when bytes are counted and for its end otherwise. -/
def byteColumn (encoding : Encoding) (line : Line) (character : Nat) : Nat :=
  match encoding with
  | .utf8 => floorColumn line character
  | _ => encoding.bytesCovering line character

/-- Character offsets are numbers of 32 bits. -/
def maxOffset : Nat := 0xffffffff

/-- The character offset of a byte column. -/
def characterOffset (encoding : Encoding) (line : Line) (byte : Nat) : Nat :=
  min (encoding.length (takeBytes line byte)) maxOffset

end Encoding
end Autocomplete

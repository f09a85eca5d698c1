/-!
Byte columns. A line is the list of its characters, and a column counts the bytes of its UTF-8 text.
Columns inside a character belong to the boundary before it: `takeBytes` and `dropBytes` cut a line
there, and `floorColumn` is that boundary.
-/
namespace Autocomplete.Text

/-- A line of text, without its line ending. -/
abbrev Line := List Char

/-- The length in bytes. -/
def byteLength : Line → Nat
  | [] => 0
  | c :: line => c.utf8Size + byteLength line

@[simp] theorem byteLength_nil : byteLength [] = 0 := rfl

@[simp] theorem byteLength_cons (c : Char) (line : Line) :
    byteLength (c :: line) = c.utf8Size + byteLength line := rfl

@[simp] theorem byteLength_append (a b : Line) :
    byteLength (a ++ b) = byteLength a + byteLength b := by
  induction a with
  | nil => simp
  | cons c a ih => simp [ih, Nat.add_assoc]

/-- The longest initial part of at most `n` bytes. -/
def takeBytes : Line → Nat → Line
  | [], _ => []
  | c :: line, n => if c.utf8Size ≤ n then c :: takeBytes line (n - c.utf8Size) else []

/-- What follows the longest initial part of at most `n` bytes. -/
def dropBytes : Line → Nat → Line
  | [], _ => []
  | c :: line, n => if c.utf8Size ≤ n then dropBytes line (n - c.utf8Size) else c :: line

@[simp] theorem takeBytes_append_dropBytes (line : Line) (n : Nat) :
    takeBytes line n ++ dropBytes line n = line := by
  induction line generalizing n with
  | nil => rfl
  | cons c line ih => by_cases h : c.utf8Size ≤ n <;> simp [takeBytes, dropBytes, h, ih]

/-- The greatest boundary between characters that is not above the column. -/
def floorColumn (line : Line) (n : Nat) : Nat := byteLength (takeBytes line n)

theorem floorColumn_le (line : Line) (n : Nat) : floorColumn line n ≤ n := by
  unfold floorColumn
  induction line generalizing n with
  | nil => simp [takeBytes]
  | cons c line ih =>
    by_cases h : c.utf8Size ≤ n
    · have := ih (n - c.utf8Size)
      simp only [takeBytes, h, if_true, byteLength_cons]
      omega
    · simp [takeBytes, h]

theorem floorColumn_le_byteLength (line : Line) (n : Nat) :
    floorColumn line n ≤ byteLength line := by
  conv => rhs; rw [← takeBytes_append_dropBytes line n]
  rw [byteLength_append]
  exact Nat.le_add_right _ _

/-- A column between two characters or at an end of the line. -/
def IsBoundary (line : Line) (n : Nat) : Prop := floorColumn line n = n

instance (line : Line) (n : Nat) : Decidable (IsBoundary line n) :=
  inferInstanceAs (Decidable (_ = _))

/-- The text between two columns, if both are boundaries and in order. -/
def slice? (line : Line) (start stop : Nat) : Option Line :=
  if start ≤ stop ∧ IsBoundary line start ∧ IsBoundary line stop
  then some (dropBytes (takeBytes line stop) start) else none

end Autocomplete.Text

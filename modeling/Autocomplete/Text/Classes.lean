import Autocomplete.Text.Ranges

/-!
Character classes. `isLetter`, `isAlphanumeric` and `isBlank` follow the properties Alphabetic, Nd,
Nl, No and White_Space; ASCII is decided by rule and everything else by table.
-/
namespace Autocomplete.Text

def inRanges (ranges : List (Nat × Nat)) (c : Char) : Bool :=
  ranges.any fun r => r.1 ≤ c.toNat && c.toNat ≤ r.2

/-- Letters and numbers of any script. -/
def isAlphanumeric (c : Char) : Bool :=
  if c.val < 128 then c.isAlphanum else inRanges alphanumericRanges c

/-- Letters of any script. -/
def isLetter (c : Char) : Bool :=
  if c.val < 128 then c.isAlpha else inRanges alphanumericRanges c && !inRanges numberRanges c

/-- The characters of which identifiers are made. -/
def isIdentifier (c : Char) : Bool := isAlphanumeric c || c == '_'

/-- The characters with the property White_Space. -/
def blankRanges : List (Nat × Nat) :=
  [(0x09, 0x0D), (0x20, 0x20), (0x85, 0x85), (0xA0, 0xA0), (0x1680, 0x1680), (0x2000, 0x200A),
   (0x2028, 0x2029), (0x202F, 0x202F), (0x205F, 0x205F), (0x3000, 0x3000)]

def isBlank (c : Char) : Bool := inRanges blankRanges c

/-- Marks that attach to the character before them. -/
def isExtending (c : Char) : Bool := inRanges extendingRanges c

/-- Characters that leave a visible trace, and the space. -/
def isPrintable (c : Char) : Bool :=
  if c.val < 128 then 0x20 ≤ c.val && c.val < 0x7F else !inRanges unprintableRanges c

/-- The value of a hexadecimal digit. -/
def hexValue? (c : Char) : Option Nat :=
  if c.isDigit then some (c.toNat - 48)
  else if 'a' ≤ c && c ≤ 'f' then some (c.toNat - 87)
  else if 'A' ≤ c && c ≤ 'F' then some (c.toNat - 55)
  else none

end Autocomplete.Text

import Autocomplete.Text.Classes

/-!
The smallest parts of patterns: single characters and what a backslash makes of them. Patterns match
text by Unicode characters, but no table of Unicode properties is at hand. So everything that needs one
is refused: the classes of digits, blanks and word characters, the ends of words, and matching in
whatever case. A pattern may switch to bytes, where these are known for ASCII; there in turn nothing may
match a part of a character.
-/
namespace Autocomplete.Pattern

/-- How a place of a pattern is read. -/
structure Mode where
  ignoreCase : Bool := false
  unicode : Bool := true
  /-- Blanks and comments stand for nothing. -/
  spaced : Bool := false
  deriving DecidableEq, Repr, Inhabited

/-- Skips blanks and comments, which go from a number sign to the end of the line. -/
def skipSpace (inComment : Bool) : List Char → List Char
  | [] => []
  | c :: rest =>
    if inComment then skipSpace (c != '\n') rest
    else if Text.isBlank c then skipSpace false rest
    else if c = '#' then skipSpace true rest
    else c :: rest

namespace Mode

def skip (m : Mode) (cs : List Char) : List Char := if m.spaced then skipSpace false cs else cs

/-- The character behind blanks and, at most, the sign of one comment. -/
def ahead (m : Mode) (cs : List Char) : Option Char :=
  if m.spaced then
    match cs.dropWhile Text.isBlank with
    | '#' :: rest => (rest.dropWhile Text.isBlank).head?
    | rest => rest.head?
  else cs.head?

end Mode

/-- What a character or an escape stands for. -/
inductive Atom where
  /-- A character, which may be given as a byte by its two digits. -/
  | char (c : Char) (isByte : Bool)
  /-- The digits, blanks or word characters, or all others. -/
  | group (negated : Bool)
  /-- An end of a word, or any other place. -/
  | wordEnd
  /-- An end of the text. -/
  | textEnd
  deriving DecidableEq, Repr

namespace Atom

/-- Whether an atom may stand on its own. -/
def isAllowed (m : Mode) : Atom → Bool
  | .char c isByte => if m.unicode then !m.ignoreCase else c.val < 128 || !isByte
  | .group negated => !m.unicode && !negated
  | .wordEnd => !m.unicode
  | .textEnd => true

/-- Whether an atom may stand between brackets. -/
def isAllowedInBrackets (m : Mode) : Atom → Bool
  | .char c _ => if m.unicode then !m.ignoreCase else c.val < 128
  | .group negated => !m.unicode && !negated
  | .wordEnd => false
  | .textEnd => false

end Atom

/-- A number of so many hexadecimal digits, and the rest after it. -/
def hexNumber? (m : Mode) : Nat → Nat → List Char → Option (Nat × List Char)
  | 0, n, cs => some (n, cs)
  | count + 1, n, cs =>
    match m.skip cs with
    | c :: rest => do
      let digit ← Text.hexValue? c
      hexNumber? m count (16 * n + digit) rest
    | [] => none

/-- A character given by its number. -/
def numbered? (m : Mode) (digits : Nat) (cs : List Char) : Option (Atom × List Char) := do
  let (n, rest) ← hexNumber? m digits 0 cs
  if n.isValidChar then some (.char (Char.ofNat n) (digits == 2), rest) else none

/-- What stands after a backslash. A letter or digit without a meaning and anything beyond ASCII is
refused, and so is the property of a character; other signs stand for themselves. -/
def escape? (m : Mode) : List Char → Option (Atom × List Char)
  | [] => none
  | c :: rest =>
    match c with
    | 'x' => numbered? m 2 rest
    | 'u' => numbered? m 4 rest
    | 'U' => numbered? m 8 rest
    | 'd' | 's' | 'w' => some (.group false, rest)
    | 'D' | 'S' | 'W' => some (.group true, rest)
    | 'b' | 'B' | '<' | '>' => some (.wordEnd, rest)
    | 'A' | 'z' => some (.textEnd, rest)
    | 'a' => some (.char '\x07' false, rest)
    | 'f' => some (.char '\x0c' false, rest)
    | 't' => some (.char '\t' false, rest)
    | 'n' => some (.char '\n' false, rest)
    | 'r' => some (.char '\r' false, rest)
    | 'v' => some (.char '\x0b' false, rest)
    | c => if c.val < 128 && !c.isAlphanum then some (.char c false, rest) else none

end Autocomplete.Pattern

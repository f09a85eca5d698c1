import Autocomplete.Text.Folding

/-!
Filtering by what was typed. A matcher is asked one question after the other and may remember them. By
the usual one a candidate passes if the characters of the pattern occur in it in order, with case
ignored; the marks of Latin letters are ignored too, unless the pattern has some.
-/
namespace Autocomplete
open Text

/-- Whether a candidate fits the typed text. -/
structure Question where
  typed : String
  candidate : String
  deriving DecidableEq, Repr

/-- Decides which candidates fit the typed text. -/
structure Matcher where
  /-- The answer to a question, given those that were asked before it. -/
  answer : List Question → Question → Bool

namespace Matcher

instance : Inhabited Matcher := ⟨⟨fun _ _ => true⟩⟩

instance : CoeFun Matcher fun _ => String → String → Bool :=
  ⟨fun matcher typed candidate => matcher.answer [] ⟨typed, candidate⟩⟩

/-- A matcher that forgets its questions. -/
def ofFun (fits : String → String → Bool) : Matcher := ⟨fun _ q => fits q.typed q.candidate⟩

/-- A matcher after some questions. -/
def after (matcher : Matcher) (asked : List Question) : Matcher :=
  ⟨fun more => matcher.answer (asked ++ more)⟩

/-- Leaves out what the matcher turns down. It is asked about one candidate after the other, and never
about one without a question. -/
def sift {α : Type} (matcher : Matcher) : List (α × Option Question) → List α × Matcher
  | [] => ([], matcher)
  | (a, none) :: rest =>
    let (kept, last) := matcher.sift rest
    (a :: kept, last)
  | (a, some q) :: rest =>
    let (kept, last) := (matcher.after [q]).sift rest
    (if matcher.answer [] q then a :: kept else kept, last)

/-- What a candidate's character is compared by. -/
def comparable (ignoreMarks : Bool) (c : Char) : Char :=
  foldCase (if ignoreMarks then baseLetter c else c)

/-- What a character is compared by where a match with gaps is scored: if marks count, a small letter
that is itself a variant of another one stays as it is. -/
def scoredAs (ignoreMarks : Bool) (c : Char) : Char :=
  if !ignoreMarks && isLowerVariant c then c else comparable ignoreMarks c

/-- The part of a text from the first place where a match of so many characters can start to the
last place where it can end, given the match's first and last character. -/
def window (comparison : Char → Char) (first last : Char) (length : Nat) (text : List Char) :
    List Char :=
  let (head, tail) := text.splitAt (text.length + 1 - length)
  match head.dropWhile (comparison · != first) with
  | [] => []
  | c :: rest => c :: ((rest ++ tail).reverse.dropWhile (comparison · != last)).reverse

/-- The bytes that a table of scores takes up for all places of a pattern in a window: five for each
character of the window and two for each of the pattern, filled up to a multiple of eight, then eight
for each place, and one for each character of the pattern at each place. -/
def tableSize (width length : Nat) : Nat :=
  let places := width + 1 - length
  (5 * width + 2 * length + 7) / 8 * 8 + 8 * places + length * places

/-- Whether a pattern is looked for by scores. A large window is only searched from its beginning. -/
def isScored (width length : Nat) : Bool :=
  width * length ≤ 102400 && tableSize width length ≤ 133120

/-- Whether a folded pattern fits a text. A pattern of the text's length has to be the text, one of
a single character to occur in it; any other is looked for in the `window` that it can lie in. -/
def fits (ignoreMarks : Bool) (pattern text : List Char) : Bool :=
  let compared := comparable ignoreMarks
  match pattern.head?, pattern.getLast? with
  | some first, some last =>
    if pattern.length = text.length then text.map compared == pattern
    else if pattern.length = 1 then (text.map compared).contains first
    else
      let span := window compared first last pattern.length text
      if span.length = pattern.length then span.map compared == pattern
      else if isScored span.length pattern.length then
        pattern.isSublist (span.map (scoredAs ignoreMarks))
      else pattern.isSublist (span.map compared)
  | _, _ => true

def isPlain (text : List Char) : Bool := text.all (·.val < 128)

/-- An empty pattern fits everything, and one with characters beyond ASCII no text without any. -/
def fuzzy : Matcher := .ofFun fun pattern candidate =>
  let typed := pattern.toList
  let text := candidate.toList
  let folded := typed.map foldCase
  (isPlain typed || !isPlain text) && fits (folded.all fun c => (baseLetter? c).isNone) folded text
    || typed.isEmpty

/-- Whether one list stands in another without a gap. -/
def isInfixOf (part : List Char) : List Char → Bool
  | [] => part.isEmpty
  | c :: cs => part.isPrefixOf (c :: cs) || isInfixOf part cs

theorem isInfixOf_iff (part text : List Char) : isInfixOf part text = true ↔ part <:+: text := by
  induction text with
  | nil => simp [isInfixOf]
  | cons c cs ih => simp [isInfixOf, ih, List.infix_cons_iff]

/-- The pattern as it is, anywhere in the candidate. -/
def contains : Matcher := .ofFun fun pattern candidate => isInfixOf pattern.toList candidate.toList

end Matcher
end Autocomplete

import Autocomplete.Proofs.Snippet
import Mathlib.Data.List.Basic

/-! Escaped text as a code. Read from the left, a backslash escapes whatever comes after it, so that a
text is made of letters, of which some are written as escapes. Escaping a text writes exactly its
special characters as escapes, and no other way of writing it does. -/
namespace Autocomplete.Snippet

/-- A character of a text with escapes. -/
inductive Letter where
  | plain (c : Char)
  | escaped (c : Char)
  deriving DecidableEq, Repr

namespace Letter

def char : Letter → Char
  | plain c => c
  | escaped c => c

def isEscaped : Letter → Bool
  | plain _ => false
  | escaped _ => true

def spelling : Letter → List Char
  | plain c => [c]
  | escaped c => ['\\', c]

/-- The letter that stands for a character in escaped text. -/
def of (c : Char) : Letter := if isSpecial c then escaped c else plain c

end Letter

/-- A text as it is read from the left. A backslash at the end has nothing to escape. -/
def letters : List Char → List Letter
  | '\\' :: c :: rest => .escaped c :: letters rest
  | c :: rest => .plain c :: letters rest
  | [] => []

/-- The escaped characters are the special ones. -/
def EscapesSpecials (written : List Char) : Prop :=
  ∀ letter ∈ letters written, letter.isEscaped = isSpecial letter.char

instance (written : List Char) : Decidable (EscapesSpecials written) :=
  inferInstanceAs (Decidable (∀ letter ∈ _, _))

theorem letters_cons {c : Char} (h : c ≠ '\\') (rest : List Char) :
    letters (c :: rest) = .plain c :: letters rest := by
  rw [letters]
  exact fun d _ hc _ => h hc

/-- Every character of a text belongs to one of its letters. -/
theorem flatMap_spelling_letters (text : List Char) :
    (letters text).flatMap Letter.spelling = text := by
  fun_induction letters text with
  | case1 c rest ih => rw [List.flatMap_cons, ih]; rfl
  | case2 c rest _ ih => rw [List.flatMap_cons, ih]; rfl
  | case3 => rfl

/-- What is left when the escaping backslashes are dropped. -/
theorem map_char_letters (text : List Char) : (letters text).map Letter.char = unescape text := by
  fun_induction letters text with
  | case1 c rest ih => rw [List.map_cons, ih, unescape]; rfl
  | case2 c rest h ih =>
    rw [List.map_cons, ih, unescape]
    · rfl
    · exact h
  | case3 => rfl

/-- The end of escaped text escapes nothing of what follows. -/
theorem letters_escape_append (text rest : List Char) :
    letters (escape text ++ rest) = text.map Letter.of ++ letters rest := by
  induction text with
  | nil => rfl
  | cons c text ih =>
    cases h : isSpecial c with
    | true =>
      rw [escape_cons_special h, List.cons_append, List.cons_append, letters, ih]
      simp [Letter.of, h]
    | false =>
      have hc : c ≠ '\\' := by
        rintro rfl
        cases h
      rw [escape_cons h, List.cons_append, letters_cons hc, ih]
      simp [Letter.of, h]

theorem letters_escape (text : List Char) : letters (escape text) = text.map Letter.of := by
  have h := letters_escape_append text []
  rwa [List.append_nil, letters, List.append_nil] at h

theorem escape_eq_flatMap_spelling (text : List Char) :
    escape text = text.flatMap fun c => (Letter.of c).spelling := by
  refine List.flatMap_congr fun c _ => ?_
  cases h : isSpecial c <;> simp [Letter.of, Letter.spelling, h]

theorem escapesSpecials_escape (text : List Char) : EscapesSpecials (escape text) := by
  intro letter hl
  rw [letters_escape] at hl
  obtain ⟨c, _, rfl⟩ := List.mem_map.mp hl
  cases h : isSpecial c <;> simp [Letter.of, Letter.isEscaped, Letter.char, h]

/-- A letter is known by its character if special ones are escaped and no others. -/
theorem Letter.of_char {letter : Letter} (h : letter.isEscaped = isSpecial letter.char) :
    Letter.of letter.char = letter := by
  cases letter with
  | plain c =>
    have hc : isSpecial c = false := h.symm
    simp [Letter.of, Letter.char, hc]
  | escaped c =>
    have hc : isSpecial c = true := h.symm
    simp [Letter.of, Letter.char, hc]

theorem EscapesSpecials.eq_escape {written : List Char} (h : EscapesSpecials written) :
    written = escape (unescape written) := by
  rw [escape_eq_flatMap_spelling, ← map_char_letters, List.flatMap_map]
  conv => lhs; rw [← flatMap_spelling_letters written]
  refine List.flatMap_congr fun letter hl => ?_
  rw [Letter.of_char (h letter hl)]

/-- Escaped text reads as it was once the escaping backslashes are dropped. Its backslashes, dollar signs
and closing braces are escaped and nothing else is, and no other text that reads the same is so written.
The parts of a text are escaped one by one. -/
theorem escape_isFaithful (text more : List Char) :
    unescape (escape text) = text ∧
    (letters (escape text)).flatMap Letter.spelling = escape text ∧
    (∀ letter ∈ letters (escape text), letter.isEscaped = true ↔
      letter.char = '\\' ∨ letter.char = '$' ∨ letter.char = '\x7d') ∧
    (∀ written, unescape written = text → EscapesSpecials written → written = escape text) ∧
    escape (text ++ more) = escape text ++ escape more := by
  refine ⟨unescape_escape text, flatMap_spelling_letters _, ?_, ?_, escape_append text more⟩
  · intro letter hl
    rw [escapesSpecials_escape text letter hl]
    simp [isSpecial, or_assoc]
  · rintro written rfl h
    exact h.eq_escape

/-- A backslash before a dollar sign. Only one way to write both so that they are read as they are escapes
each of them and nothing else. -/
theorem escape_isFaithful_backslash :
    escape ['\\', '$'] = ['\\', '\\', '\\', '$'] ∧
    Letter.escaped '$' ∈ letters (escape ['\\', '$']) ∧ (Letter.escaped '$').isEscaped = true := by
  obtain ⟨_, _, hspecials, hunique, _⟩ := escape_isFaithful ['\\', '$'] []
  have hdollar : Letter.escaped '$' ∈ letters (escape ['\\', '$']) := by decide
  exact ⟨(hunique ['\\', '\\', '\\', '$'] rfl (by decide)).symm, hdollar,
    (hspecials _ hdollar).mpr (.inr (.inl rfl))⟩

end Autocomplete.Snippet

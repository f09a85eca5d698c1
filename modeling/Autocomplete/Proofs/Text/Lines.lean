import Autocomplete.Buffer

/-! Lines and the text that they make up. A text is split at its line breaks, and joining the lines
gives the text back; the lines of two texts put together are those of both, of which the last one of
the first and the first one of the second make one line. -/
namespace Autocomplete
open Text

/-- The text of some lines, with a line break between each two. -/
def joinLines : List Line → List Char
  | [] => []
  | [line] => line
  | line :: next :: rest => line ++ '\n' :: joinLines (next :: rest)

theorem joinLines_cons {lines : List Line} (line : Line) (h : lines ≠ []) :
    joinLines (line :: lines) = line ++ '\n' :: joinLines lines := by
  cases lines with
  | nil => exact absurd rfl h
  | cons next rest => rfl

theorem splitLines_ne_nil (text : List Char) : splitLines text ≠ [] := splitAtEach_ne_nil '\n' text

theorem exists_splitLines_eq_cons (text : List Char) :
    ∃ first rest, splitLines text = first :: rest :=
  List.exists_cons_of_ne_nil (splitLines_ne_nil text)

theorem exists_splitLines_eq_concat (text : List Char) :
    ∃ init last, splitLines text = init ++ [last] :=
  ⟨_, _, (List.dropLast_concat_getLast (splitLines_ne_nil text)).symm⟩

theorem splitLines_cons_newline (text : List Char) :
    splitLines ('\n' :: text) = [] :: splitLines text := by
  simp [splitLines, splitAtEach]

theorem splitLines_cons {c : Char} {text first : List Char} {rest : List Line} (hc : c ≠ '\n')
    (h : splitLines text = first :: rest) : splitLines (c :: text) = (c :: first) :: rest := by
  unfold splitLines at h ⊢
  simp [splitAtEach, hc, h]

theorem splitLines_append {u v : List Char} {init rest : List Line} {last first : Line}
    (hu : splitLines u = init ++ [last]) (hv : splitLines v = first :: rest) :
    splitLines (u ++ v) = init ++ (last ++ first) :: rest := by
  induction u generalizing init last with
  | nil =>
    cases init with
    | nil =>
      obtain rfl := (List.cons.inj hu).1
      exact hv
    | cons line init => simp [splitLines, splitAtEach] at hu
  | cons c u ih =>
    by_cases hc : c = '\n'
    · subst hc
      rw [splitLines_cons_newline] at hu
      cases init with
      | nil => exact absurd (List.cons.inj hu).2 (splitLines_ne_nil u)
      | cons line init =>
        obtain ⟨rfl, hs⟩ := List.cons.inj hu
        rw [List.cons_append, splitLines_cons_newline, ih hs]
        rfl
    · obtain ⟨start, others, hs⟩ := exists_splitLines_eq_cons u
      rw [splitLines_cons hc hs] at hu
      cases init with
      | nil =>
        obtain ⟨rfl, rfl⟩ := List.cons.inj hu
        exact splitLines_cons hc (ih (show splitLines u = [] ++ [start] from hs))
      | cons line init =>
        obtain ⟨rfl, rfl⟩ := List.cons.inj hu
        exact splitLines_cons hc (ih (show splitLines u = (start :: init) ++ [last] from hs))

theorem splitLines_of_notMem {line : Line} (h : '\n' ∉ line) : splitLines line = [line] := by
  induction line with
  | nil => rfl
  | cons c line ih =>
    exact splitLines_cons (List.ne_of_not_mem_cons h).symm (ih (List.not_mem_of_not_mem_cons h))

theorem splitLines_line {line : Line} (h : '\n' ∉ line) (text : List Char) :
    splitLines (line ++ '\n' :: text) = line :: splitLines text := by
  have hline : splitLines line = [] ++ [line] := splitLines_of_notMem h
  simp [splitLines_append hline (splitLines_cons_newline text)]

/-- No line has a line break. -/
def Unbroken (lines : List Line) : Prop := ∀ line ∈ lines, '\n' ∉ line

instance (lines : List Line) : Decidable (Unbroken lines) :=
  inferInstanceAs (Decidable (∀ line ∈ lines, _))

theorem splitLines_unbroken (text : List Char) : Unbroken (splitLines text) := by
  induction text with
  | nil => simp [Unbroken, splitLines, splitAtEach]
  | cons c text ih =>
    obtain ⟨first, rest, hs⟩ := exists_splitLines_eq_cons text
    rw [hs] at ih
    obtain ⟨hf, hr⟩ := List.forall_mem_cons.mp ih
    by_cases hc : c = '\n'
    · rw [hc, splitLines_cons_newline, hs]
      exact List.forall_mem_cons.mpr ⟨List.not_mem_nil, ih⟩
    · rw [splitLines_cons hc hs]
      refine List.forall_mem_cons.mpr ⟨?_, hr⟩
      simp [hf, Ne.symm hc]

/-- Lines behind a text stay where they are when the text is split. -/
theorem splitLines_append_lines {v first : List Char} {after : List Line}
    (hv : splitLines v = first :: after) (u : List Char) :
    splitLines (u ++ first) ++ after = splitLines (u ++ v) := by
  obtain ⟨init, last, hu⟩ := exists_splitLines_eq_concat u
  have hf : '\n' ∉ first := splitLines_unbroken v first (by simp [hv])
  rw [splitLines_append hu hv, splitLines_append hu (splitLines_of_notMem hf)]
  simp

theorem joinLines_splitLines (text : List Char) : joinLines (splitLines text) = text := by
  induction text with
  | nil => rfl
  | cons c text ih =>
    obtain ⟨first, rest, hs⟩ := exists_splitLines_eq_cons text
    by_cases hc : c = '\n'
    · rw [hc, splitLines_cons_newline, joinLines_cons [] (splitLines_ne_nil text), ih]
      rfl
    · rw [splitLines_cons hc hs]
      rw [hs] at ih
      cases rest with
      | nil => exact congrArg (c :: ·) ih
      | cons next rest => exact congrArg (c :: ·) ih

theorem splitLines_joinLines {lines : List Line} (hn : lines ≠ []) (hl : Unbroken lines) :
    splitLines (joinLines lines) = lines := by
  induction lines with
  | nil => exact absurd rfl hn
  | cons line lines ih =>
    obtain ⟨hline, hlines⟩ := List.forall_mem_cons.mp hl
    cases lines with
    | nil => exact splitLines_of_notMem hline
    | cons next rest =>
      rw [joinLines_cons line (List.cons_ne_nil _ _), splitLines_line hline,
        ih (List.cons_ne_nil _ _) hlines]

theorem unbroken_append_cons {init rest : List Line} {line : Line} :
    Unbroken (init ++ line :: rest) ↔ Unbroken init ∧ '\n' ∉ line ∧ Unbroken rest := by
  simp [Unbroken, or_imp, forall_and]

/-- The text up to a place inside a line, and the text from there on. -/
theorem joinLines_append (init rest : List Line) (u v : Line) :
    joinLines (init ++ (u ++ v) :: rest) =
      joinLines (init ++ [u]) ++ v ++ joinLines ([] :: rest) := by
  induction init with
  | nil => cases rest <;> simp [joinLines]
  | cons line init ih =>
    rw [List.cons_append, joinLines_cons line (by simp), ih, List.cons_append,
      joinLines_cons line (by simp)]
    simp

theorem splitLines_joinLines_append {init rest : List Line} {u v : Line}
    (h : Unbroken (init ++ (u ++ v) :: rest)) :
    splitLines (joinLines (init ++ [u]) ++ v ++ joinLines ([] :: rest)) =
      init ++ (u ++ v) :: rest := by
  rw [← joinLines_append, splitLines_joinLines (by simp) h]

/-- A text that goes on behind the end of a line: it is over, or a line break comes first. -/
def EndsLine (text : List Char) : Prop := ∀ c ∈ text.head?, c = '\n'

theorem endsLine_joinLines (rest : List Line) : EndsLine (joinLines ([] :: rest)) := by
  cases rest <;> simp [EndsLine, joinLines]

namespace EndsLine

variable {text : List Char}

theorem cases (h : EndsLine text) : text = [] ∨ ∃ rest, text = '\n' :: rest := by
  cases text with
  | nil => exact .inl rfl
  | cons c rest => exact .inr ⟨rest, by rw [h c rfl]⟩

theorem splitLines (h : EndsLine text) : ∃ rest, splitLines text = [] :: rest := by
  rcases h.cases with rfl | ⟨rest, rfl⟩
  · exact ⟨[], rfl⟩
  · exact ⟨_, splitLines_cons_newline rest⟩

theorem take (h : EndsLine text) (n : Nat) : EndsLine (text.take n) := by
  rcases h.cases with rfl | ⟨rest, rfl⟩
  · simpa using h
  · cases n <;> simp [EndsLine]

theorem append (h : EndsLine text) (hne : text ≠ []) (rest : List Char) :
    EndsLine (text ++ rest) := by
  obtain ⟨next, rfl⟩ := h.cases.resolve_left hne
  simp [EndsLine]

end EndsLine
end Autocomplete

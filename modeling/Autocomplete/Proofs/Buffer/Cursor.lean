import Autocomplete.Proofs.Buffer

/-! Where the cursor is after an edit: behind it the cursor moves with the text, and before it the cursor
stays where it is. -/
namespace Autocomplete
open Text

namespace Cursor

/-- A text without a line break moves a place to the right; any other text takes it to another line, to a
column that does not depend on where it was. -/
theorem after_cases (text : List Char) :
    ('\n' ∉ text ∧ ∀ c : Cursor, c.after text = ⟨c.line, c.column + byteLength text⟩) ∨
      ∃ lines column, 0 < lines ∧ ∀ c : Cursor, c.after text = ⟨c.line + lines, column⟩ := by
  by_cases h : '\n' ∈ text
  · obtain ⟨init, last, hs⟩ := exists_splitLines_eq_concat text
    have hn : init ≠ [] := by
      rintro rfl
      have hj := joinLines_splitLines text
      have hlast : '\n' ∉ last := splitLines_unbroken text last (by simp [hs])
      rw [hs] at hj
      obtain rfl : last = text := hj
      exact hlast h
    refine .inr ⟨init.length, byteLength last, List.length_pos_iff.mpr hn, fun c => ?_⟩
    obtain ⟨line, others, hr⟩ := List.exists_cons_of_ne_nil (mt List.reverse_eq_nil_iff.mp hn)
    have hlen : init.length = others.length + 1 := by
      rw [← List.length_reverse, hr, List.length_cons]
    simp [after, hs, hr, hlen]
  · refine .inl ⟨h, fun c => ?_⟩
    simp [after, splitLines_of_notMem h]

theorem after_behind (u v : List Char) : (behind u).after v = behind (u ++ v) := by
  obtain ⟨init, last, hu⟩ := exists_splitLines_eq_concat u
  obtain ⟨first, rest, hv⟩ := exists_splitLines_eq_cons v
  rw [behind_eq hu]
  rcases List.eq_nil_or_concat rest with rfl | ⟨middle, final, rfl⟩
  · rw [behind_eq (splitLines_append hu hv)]
    simp [after, hv]
  · have happ : splitLines (u ++ v) = (init ++ (last ++ first) :: middle) ++ [final] := by
      rw [splitLines_append hu hv]
      simp
    rw [behind_eq happ]
    simp [after, hv]

end Cursor

namespace Buffer
open Cursor

/-- A cursor behind an edit moves with the text. -/
theorem moveCursor_behind (start : Cursor) (u text rest : List Char) :
    moveCursor start (behind u) (behind text) (behind (u ++ rest)) = behind (text ++ rest) := by
  rw [← after_behind u rest, ← after_behind text rest]
  rcases after_cases rest with ⟨_, h⟩ | ⟨lines, column, hpos, h⟩
  · simp only [h, moveCursor, before]
    grind
  · simp only [h, moveCursor, before]
    grind

/-- A cursor before an edit stays where it is. -/
theorem moveCursor_before {start stop cursor : Cursor} (hstart : start.before cursor = false)
    (hstop : cursor.before stop = true) (inserted : Cursor) :
    moveCursor start stop inserted cursor = cursor := by
  simp [moveCursor, hstart, hstop]

theorem replace_cursor {b : Buffer} {u v w : List Char} (hb : b.lines = splitLines (u ++ v ++ w))
    (text : List Char) : (b.replace (behind u) (behind (u ++ v)) text).cursor =
      moveCursor (behind u) (behind (u ++ v)) (behind (u ++ text)) b.cursor := by
  have hstart : b.clamp (behind u) = behind u := clamp_behind (hb.trans (by rw [List.append_assoc]))
  simp [replace, hstart, clamp_behind hb, not_before_behind, after_behind]

/-- The text from one offset to another is replaced, where what stands behind both may already have
changed. -/
theorem replace_between {b : Buffer} {text rest : List Char} {i j : Nat}
    (hb : b.lines = splitLines (text.take (max i j) ++ rest)) (new : List Char) :
    (b.replace (behind (text.take i)) (behind (text.take j)) new).lines =
        splitLines (text.take i ++ new ++ rest) ∧
      (b.replace (behind (text.take i)) (behind (text.take j)) new).cursor =
        moveCursor (behind (text.take i)) (behind (text.take (max i j)))
          (behind (text.take i ++ new)) b.cursor := by
  have hsplit {m n : Nat} (h : m ≤ n) :
      text.take n = text.take m ++ (text.drop m).take (n - m) := by
    rw [← List.take_add, Nat.add_sub_cancel' h]
  rcases Nat.le_total i j with h | h
  · rw [Nat.max_eq_right h, hsplit h] at hb ⊢
    exact ⟨replace_behind hb new, replace_cursor hb new⟩
  · rw [Nat.max_eq_left h] at hb ⊢
    have hempty : b.lines = splitLines (text.take i ++ [] ++ rest) := by rw [hb, List.append_nil]
    have hback : b.replace (behind (text.take i)) (behind (text.take j)) new =
        b.replace (behind (text.take i)) (behind (text.take i ++ [])) new := by
      rw [hsplit h] at hb ⊢
      rw [replace_backwards hb, List.append_nil]
    have hcursor := replace_cursor hempty new
    rw [hback]
    refine ⟨replace_behind hempty new, hcursor.trans ?_⟩
    rw [List.append_nil]

/-- A text that is put in at the cursor. -/
theorem insert_lines {b : Buffer} {u v : List Char} (hb : b.lines = splitLines (u ++ v))
    (hc : b.cursor = behind u) (text : List Char) :
    (b.replace b.cursor b.cursor text).lines = splitLines (u ++ text ++ v) := by
  have hempty : b.lines = splitLines (u ++ [] ++ v) := by rw [hb, List.append_nil]
  have h := replace_behind hempty text
  rwa [List.append_nil, ← hc] at h

end Buffer
end Autocomplete

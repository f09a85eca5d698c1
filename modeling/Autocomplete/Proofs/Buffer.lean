import Autocomplete.Proofs.Text.Columns
import Autocomplete.Proofs.Text.Lines

/-! What an edit makes of a text. The place behind an initial part of the text is the same in every
text that starts with that part, also as a server counts, and a text that is put in place of another
one stands between what was before and behind it. -/
namespace Autocomplete
open Text

/-- The place behind a text with which a document starts, as a server counts. -/
def Position.behind (encoding : Encoding) (text : List Char) : Position :=
  ⟨(splitLines text).length - 1, encoding.length ((splitLines text).getLastD [])⟩

/-- The place behind a text with which a document starts. -/
def Cursor.behind (text : List Char) : Cursor := Cursor.after ⟨0, 0⟩ text

section
variable {u : List Char} {init : List Line} {last : Line}

theorem Position.behind_eq (encoding : Encoding) (hu : splitLines u = init ++ [last]) :
    Position.behind encoding u = ⟨init.length, encoding.length last⟩ := by
  simp [Position.behind, hu]

theorem Cursor.behind_eq (hu : splitLines u = init ++ [last]) :
    Cursor.behind u = ⟨init.length, byteLength last⟩ := by
  simp only [Cursor.behind, Cursor.after, hu, List.reverse_append, List.reverse_singleton,
    List.singleton_append]
  cases h : init.reverse with
  | nil =>
    obtain rfl := List.reverse_eq_nil_iff.mp h
    simp
  | cons line others =>
    have hlen : init.length = others.length + 1 := by
      rw [← List.length_reverse, h, List.length_cons]
    simp [hlen]

end

theorem Cursor.behind_eq_position (u : List Char) :
    Cursor.behind u = ⟨(Position.behind .utf8 u).line, (Position.behind .utf8 u).character⟩ := by
  obtain ⟨init, last, hu⟩ := exists_splitLines_eq_concat u
  rw [Cursor.behind_eq hu, Position.behind_eq .utf8 hu, Encoding.length_utf8]

theorem Position.behind_append_line (encoding : Encoding) (u : List Char) {line : Line}
    (h : '\n' ∉ line) : Position.behind encoding (u ++ line) =
      ⟨(behind encoding u).line, (behind encoding u).character + encoding.length line⟩ := by
  obtain ⟨init, last, hu⟩ := exists_splitLines_eq_concat u
  rw [behind_eq encoding (splitLines_append hu (splitLines_of_notMem h)), behind_eq encoding hu,
    Encoding.length_append]

theorem Position.behind_append_break (encoding : Encoding) (u v : List Char) :
    Position.behind encoding (u ++ '\n' :: v) =
      ⟨(behind encoding u).line + 1 + (behind encoding v).line, (behind encoding v).character⟩ := by
  obtain ⟨init, last, hu⟩ := exists_splitLines_eq_concat u
  obtain ⟨middle, final, hv⟩ := exists_splitLines_eq_concat v
  have happ : splitLines (u ++ '\n' :: v) = (init ++ last :: middle) ++ [final] := by
    rw [splitLines_append hu (splitLines_cons_newline v), hv]
    simp
  rw [behind_eq encoding happ, behind_eq encoding hu, behind_eq encoding hv]
  simp
  omega

/-- The longer the text, the later the place behind it. -/
theorem Position.behind_lt (encoding : Encoding) (u : List Char) {v : List Char} (hv : v ≠ []) :
    (Position.behind encoding u).line < (Position.behind encoding (u ++ v)).line ∨
      (Position.behind encoding u).line = (Position.behind encoding (u ++ v)).line ∧
      (Position.behind encoding u).character < (Position.behind encoding (u ++ v)).character := by
  obtain ⟨init, last, hu⟩ := exists_splitLines_eq_concat u
  obtain ⟨first, rest, hs⟩ := exists_splitLines_eq_cons v
  have happ := splitLines_append hu hs
  rw [Position.behind_eq encoding hu]
  cases rest with
  | nil =>
    have hf : first ≠ [] := by
      rw [← joinLines_splitLines v, hs] at hv
      exact hv
    have hpos := encoding.length_pos hf
    rw [Position.behind_eq encoding happ, Encoding.length_append]
    exact .inr ⟨rfl, Nat.lt_add_of_pos_right hpos⟩
  | cons next rest =>
    left
    simp [Position.behind, happ]

theorem Cursor.before_behind (u : List Char) {v : List Char} (hv : v ≠ []) :
    (Cursor.behind u).before (Cursor.behind (u ++ v)) = true := by
  have h := Position.behind_lt .utf8 u hv
  simpa [Cursor.behind_eq_position, Cursor.before] using h

theorem Cursor.not_before_behind (u v : List Char) :
    (Cursor.behind (u ++ v)).before (Cursor.behind u) = false := by
  by_cases hv : v = []
  · simp [hv, Cursor.before]
  · have h := Position.behind_lt .utf8 u hv
    simp only [Cursor.behind_eq_position, Cursor.before]
    grind

namespace Buffer

theorem line_eq {b : Buffer} {init rest : List Line} {line : Line}
    (hb : b.lines = init ++ line :: rest) : b.line init.length = line := by
  simp [Buffer.line, line?, hb]

theorem clamp_eq {b : Buffer} {init rest : List Line} {u v : Line}
    (hb : b.lines = init ++ (u ++ v) :: rest) :
    b.clamp ⟨init.length, byteLength u⟩ = ⟨init.length, byteLength u⟩ := by
  have hlt : init.length < b.lines.length := by simp [hb]
  simp only [clamp, hlt, if_true, line_eq hb, floorColumn_append]

/-- An edit cuts two lines and keeps what is before the first place and behind the second one. -/
theorem replace_lines {b : Buffer} {before between after others : List Line} {u u' v v' : Line}
    (hstart : b.lines = before ++ (u ++ u') :: others)
    (hstop : b.lines = between ++ (v ++ v') :: after)
    (ho : Cursor.before ⟨between.length, byteLength v⟩ ⟨before.length, byteLength u⟩ = false)
    (text : List Char) :
    (b.replace ⟨before.length, byteLength u⟩ ⟨between.length, byteLength v⟩ text).lines =
      before ++ splitLines (u ++ text ++ v') ++ after := by
  simp only [replace, clamp_eq hstart, clamp_eq hstop, ho, if_neg Bool.false_ne_true,
    line_eq hstart, line_eq hstop, takeBytes_append, dropBytes_append]
  congr 2
  · rw [hstart, List.take_left]
  · rw [hstop, List.append_cons, List.drop_left' (by simp)]

theorem toCursor_behind {b : Buffer} {u v : List Char} (hb : b.lines = splitLines (u ++ v))
    (encoding : Encoding) :
    (Position.behind encoding u).toCursor encoding
      (b.line (Position.behind encoding u).line) = Cursor.behind u := by
  obtain ⟨init, last, hu⟩ := exists_splitLines_eq_concat u
  obtain ⟨first, rest, hv⟩ := exists_splitLines_eq_cons v
  rw [splitLines_append hu hv] at hb
  rw [Position.behind_eq encoding hu, Cursor.behind_eq hu, line_eq hb, Position.toCursor,
    Encoding.byteColumn_append]

/-- What a server takes for a place behind the end of a line belongs to the end. -/
theorem toCursor_past {b : Buffer} {u v line : List Char} (hb : b.lines = splitLines (u ++ v))
    (hv : EndsLine v) (hline : '\n' ∉ line) (encoding : Encoding) :
    (Position.behind encoding (u ++ line)).toCursor encoding
      (b.line (Position.behind encoding (u ++ line)).line) = Cursor.behind u := by
  obtain ⟨init, last, hu⟩ := exists_splitLines_eq_concat u
  obtain ⟨rest, hs⟩ := hv.splitLines
  rw [splitLines_append hu hs, List.append_nil] at hb
  rw [Position.behind_append_line encoding u hline, Position.behind_eq encoding hu, line_eq hb,
    Cursor.behind_eq hu, Position.toCursor, encoding.byteColumn_of_le (Nat.le_add_right _ _)]

/-- A text stands where the one was in whose place it was put. -/
theorem replace_behind {b : Buffer} {u v w : List Char} (hb : b.lines = splitLines (u ++ v ++ w))
    (text : List Char) :
    (b.replace (Cursor.behind u) (Cursor.behind (u ++ v)) text).lines =
      splitLines (u ++ text ++ w) := by
  obtain ⟨before, last, hu⟩ := exists_splitLines_eq_concat u
  obtain ⟨between, last', huv⟩ := exists_splitLines_eq_concat (u ++ v)
  obtain ⟨first, others, hvw⟩ := exists_splitLines_eq_cons (v ++ w)
  obtain ⟨first', after, hw⟩ := exists_splitLines_eq_cons w
  have hstop := hb.trans (splitLines_append huv hw)
  rw [List.append_assoc] at hb
  have hstart := hb.trans (splitLines_append hu hvw)
  have ho := Cursor.not_before_behind u v
  rw [Cursor.behind_eq hu, Cursor.behind_eq huv] at ho ⊢
  obtain ⟨line, rest, ht⟩ := exists_splitLines_eq_cons (text ++ w)
  have hl : splitLines last = [] ++ [last] :=
    splitLines_of_notMem (splitLines_unbroken u last (by simp [hu]))
  rw [replace_lines hstart hstop ho, List.append_assoc, splitLines_append_lines hw,
    List.append_assoc last, splitLines_append hl ht, List.append_assoc u, splitLines_append hu ht]
  simp

theorem clamp_behind {b : Buffer} {u v : List Char} (hb : b.lines = splitLines (u ++ v)) :
    b.clamp (Cursor.behind u) = Cursor.behind u := by
  obtain ⟨init, last, hu⟩ := exists_splitLines_eq_concat u
  obtain ⟨first, rest, hv⟩ := exists_splitLines_eq_cons v
  rw [Cursor.behind_eq hu, clamp_eq (hb.trans (splitLines_append hu hv))]

/-- A range that ends before it starts counts as the empty one at its start. -/
theorem replace_backwards {b : Buffer} {u v w : List Char}
    (hb : b.lines = splitLines (u ++ v ++ w)) (text : List Char) :
    b.replace (Cursor.behind (u ++ v)) (Cursor.behind u) text =
      b.replace (Cursor.behind (u ++ v)) (Cursor.behind (u ++ v)) text := by
  by_cases hv : v = []
  · simp [hv]
  · have hstop : b.clamp (Cursor.behind u) = Cursor.behind u :=
      clamp_behind (hb.trans (by rw [List.append_assoc]))
    have hbefore := Cursor.before_behind u hv
    simp [replace, clamp_behind hb, hstop, hbefore]

/-- A line is cut at a column. A cursor behind the column comes to it, and one that is behind the end of
the line stays as far behind its new end. -/
theorem cut_cursor {b : Buffer} {column : Nat} (hline : b.cursor.line < b.lines.length)
    (hcut : column ≤ b.cursor.column) (hcolumn : floorColumn b.currentLine column = column) :
    (b.replace ⟨b.cursor.line, column⟩ ⟨b.cursor.line, byteLength b.currentLine⟩ []).cursor =
      ⟨b.cursor.line, column + (b.cursor.column - byteLength b.currentLine)⟩ := by
  have hend : floorColumn b.currentLine (byteLength b.currentLine) = byteLength b.currentLine :=
    floorColumn_of_le (Nat.le_refl _)
  have hstart : b.clamp ⟨b.cursor.line, column⟩ = ⟨b.cursor.line, column⟩ := by
    rw [clamp, if_pos hline]
    exact congrArg (Cursor.mk _) hcolumn
  have hstop : b.clamp ⟨b.cursor.line, byteLength b.currentLine⟩ =
      ⟨b.cursor.line, byteLength b.currentLine⟩ := by
    rw [clamp, if_pos hline]
    exact congrArg (Cursor.mk _) hend
  have hafter : Cursor.after ⟨b.cursor.line, column⟩ [] = ⟨b.cursor.line, column⟩ := rfl
  have hle : column ≤ byteLength b.currentLine := hcolumn ▸ floorColumn_le_byteLength _ column
  have hordered : Cursor.before ⟨b.cursor.line, byteLength b.currentLine⟩ ⟨b.cursor.line, column⟩ =
      false := by
    simp [Cursor.before, hle]
  dsimp only [replace]
  rw [hstart, hstop, hordered, if_neg Bool.false_ne_true, hafter]
  obtain ⟨lines, ⟨line, n⟩, tick, inserting⟩ := b
  dsimp only at hcut hle ⊢
  simp only [moveCursor, Cursor.before]
  grind

theorem lt_of_isPrefix_line {b : Buffer} {p : Line} {n : Nat} (hp : p <+: b.line n) (hne : p ≠ []) :
    n < b.lines.length := by
  refine Nat.lt_of_not_le fun h => ?_
  have hnone : b.lines[n]? = none := List.getElem?_eq_none h
  rw [line, line?, hnone, Option.getD_none, List.prefix_nil] at hp
  exact hne hp

/-- A place behind the first part of a line is not moved into it. -/
theorem clamp_not_before {b : Buffer} {p : Line} {n : Nat} {c : Cursor} (hp : p <+: b.line n)
    (hne : p ≠ []) (h : c.before ⟨n, byteLength p⟩ = false) :
    (b.clamp c).before ⟨n, byteLength p⟩ = false := by
  have hn := lt_of_isPrefix_line hp hne
  obtain ⟨u, hu⟩ := hp
  have hfloor {m : Nat} (hm : byteLength p ≤ m) : byteLength p ≤ floorColumn (b.line n) m := by
    have hmono := floorColumn_mono (b.line n) hm
    rwa [← hu, floorColumn_append, hu] at hmono
  have hend : byteLength p ≤ byteLength (b.line n) := by simp [← hu]
  simp only [Cursor.before, Bool.or_eq_false_iff, decide_eq_false_iff_not, Bool.and_eq_false_imp,
    beq_iff_eq, Nat.not_lt] at h ⊢
  unfold clamp
  split
  · refine ⟨h.1, fun hc => ?_⟩
    dsimp only at hc ⊢
    rw [hc]
    exact hfloor (h.2 hc)
  · dsimp only
    refine ⟨by omega, fun hc => ?_⟩
    rw [hc]
    exact hend

/-- An edit leaves what is before it on its line as it is. -/
theorem isPrefix_replace {b : Buffer} {p : Line} {n : Nat} {start : Cursor} (hp : p <+: b.line n)
    (hbreak : '\n' ∉ p) (h : start.before ⟨n, byteLength p⟩ = false) (stop : Cursor)
    (text : List Char) : p <+: (b.replace start stop text).line n := by
  by_cases hne : p = []
  · rw [hne]
    exact List.nil_prefix
  have hn := lt_of_isPrefix_line hp hne
  have hstart := clamp_not_before hp hne h
  dsimp only [replace]
  generalize b.clamp start = c at hstart ⊢
  generalize dropBytes _ _ = rest
  generalize List.drop _ _ = after
  simp only [Cursor.before, Bool.or_eq_false_iff, decide_eq_false_iff_not, Bool.and_eq_false_imp,
    beq_iff_eq, Nat.not_lt] at hstart
  rcases Nat.lt_or_eq_of_le hstart.1 with hlt | heq
  · have hkept : (b.lines.take c.line ++ splitLines (takeBytes (b.line c.line) c.column ++ text ++
        rest) ++ after)[n]? = b.lines[n]? := by
      rw [List.append_assoc, List.getElem?_append_left (by simp; omega), List.getElem?_take_of_lt hlt]
    change p <+: Option.getD (_)[n]? []
    rw [hkept]
    exact hp
  · have hfirst : p <+: takeBytes (b.line c.line) c.column := by
      obtain ⟨u, hu⟩ := hp
      have htake := takeBytes_takeBytes (b.line n) (hstart.2 heq.symm)
      rw [← hu, takeBytes_append, hu] at htake
      rw [← htake, ← heq]
      exact takeBytes_isPrefix _ _
    obtain ⟨w, hw⟩ := hfirst
    obtain ⟨first, others, hs⟩ := exists_splitLines_eq_cons (w ++ text ++ rest)
    have hl : splitLines p = [] ++ [p] := splitLines_of_notMem hbreak
    have hline : (b.lines.take c.line ++ splitLines (takeBytes (b.line c.line) c.column ++ text ++
        rest) ++ after)[n]? = some (p ++ first) := by
      have hlen : (b.lines.take c.line).length = n := by simp; omega
      rw [← hw, List.append_assoc p, List.append_assoc p, splitLines_append hl hs, List.append_assoc,
        List.getElem?_append_right (Nat.le_of_eq hlen), hlen]
      simp
    change p <+: Option.getD (_)[n]? []
    rw [hline]
    exact List.prefix_append p first

end Buffer
end Autocomplete

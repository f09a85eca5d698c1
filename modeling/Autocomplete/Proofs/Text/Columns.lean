import Autocomplete.Text.Encoding

/-! Columns at the end of the first part of a line, in bytes and in the code units of a server. -/
namespace Autocomplete
open Text

namespace Text

theorem takeBytes_zero (line : Line) : takeBytes line 0 = [] := by
  cases line with
  | nil => rfl
  | cons c line => simp [takeBytes, Nat.ne_of_gt c.utf8Size_pos]

theorem takeBytes_isPrefix (line : Line) (n : Nat) : takeBytes line n <+: line :=
  ⟨dropBytes line n, takeBytes_append_dropBytes line n⟩

theorem takeBytes_append (u v : Line) : takeBytes (u ++ v) (byteLength u) = u := by
  induction u with
  | nil => exact takeBytes_zero v
  | cons c u ih => simp [takeBytes, ih]

theorem dropBytes_append (u v : Line) : dropBytes (u ++ v) (byteLength u) = v := by
  have h := takeBytes_append_dropBytes (u ++ v) (byteLength u)
  rw [takeBytes_append] at h
  exact List.append_cancel_left h

theorem takeBytes_floorColumn (line : Line) (n : Nat) :
    takeBytes line (floorColumn line n) = takeBytes line n := by
  have h := takeBytes_append (takeBytes line n) (dropBytes line n)
  rwa [takeBytes_append_dropBytes] at h

theorem takeBytes_takeBytes (line : Line) {m n : Nat} (h : m ≤ n) :
    takeBytes (takeBytes line n) m = takeBytes line m := by
  induction line generalizing m n with
  | nil => rfl
  | cons c line ih =>
    by_cases hm : c.utf8Size ≤ m
    · have hn : c.utf8Size ≤ n := Nat.le_trans hm h
      simp [takeBytes, hm, hn, ih (Nat.sub_le_sub_right h c.utf8Size)]
    · by_cases hn : c.utf8Size ≤ n <;> simp [takeBytes, hm, hn]

theorem takeBytes_append_of_le {u : Line} {n : Nat} (h : n ≤ byteLength u) (v : Line) :
    takeBytes (u ++ v) n = takeBytes u n := by
  have ht := takeBytes_takeBytes (u ++ v) h
  rwa [takeBytes_append, eq_comm] at ht

theorem isBoundary_floorColumn (line : Line) (n : Nat) : IsBoundary line (floorColumn line n) :=
  congrArg byteLength (takeBytes_floorColumn line n)

theorem floorColumn_append (u v : Line) : floorColumn (u ++ v) (byteLength u) = byteLength u := by
  rw [floorColumn, takeBytes_append]

/-- A part of a line is the text between its ends. -/
theorem slice?_append (u v w : Line) :
    slice? (u ++ v ++ w) (byteLength u) (byteLength (u ++ v)) = some v := by
  have hle : byteLength u ≤ byteLength (u ++ v) := by simp
  have hstart : IsBoundary (u ++ v ++ w) (byteLength u) := by
    rw [IsBoundary, List.append_assoc, floorColumn_append]
  rw [slice?, if_pos ⟨hle, hstart, floorColumn_append (u ++ v) w⟩, takeBytes_append,
    dropBytes_append]

theorem slice?_append_left (u v : Line) : slice? (u ++ v) 0 (byteLength u) = some u :=
  slice?_append [] u v

theorem slice?_append_right (u v : Line) :
    slice? (u ++ v) (byteLength u) (byteLength (u ++ v)) = some v := by
  simpa using slice?_append u v []

theorem floorColumn_mono (line : Line) {m n : Nat} (h : m ≤ n) :
    floorColumn line m ≤ floorColumn line n := by
  have hm : floorColumn line m = floorColumn (takeBytes line n) m := by
    rw [floorColumn, floorColumn, takeBytes_takeBytes line h]
  rw [hm]
  exact floorColumn_le_byteLength (takeBytes line n) m

theorem floorColumn_of_le {line : Line} {n : Nat} (h : byteLength line ≤ n) :
    floorColumn line n = byteLength line := by
  have hend := floorColumn_append line []
  rw [List.append_nil] at hend
  have hmono := floorColumn_mono line h
  have hle := floorColumn_le_byteLength line n
  omega

end Text

namespace Encoding

variable (encoding : Encoding)

theorem width_pos (c : Char) : 0 < encoding.width c := by
  cases encoding with
  | utf8 => exact c.utf8Size_pos
  | utf16 =>
    simp only [width]
    split <;> omega
  | utf32 => exact Nat.one_pos

theorem length_utf8 (line : Line) : utf8.length line = byteLength line := by
  induction line with
  | nil => rfl
  | cons c line ih => simp [length, width, ih]

theorem length_append (u v : Line) :
    encoding.length (u ++ v) = encoding.length u + encoding.length v := by
  induction u with
  | nil => simp [length]
  | cons c u ih => simp [length, ih, Nat.add_assoc]

theorem length_pos {line : Line} (h : line ≠ []) : 0 < encoding.length line := by
  cases line with
  | nil => exact absurd rfl h
  | cons c line => exact Nat.lt_of_lt_of_le (encoding.width_pos c) (Nat.le_add_right _ _)

theorem bytesCovering_append (u v : Line) :
    encoding.bytesCovering (u ++ v) (encoding.length u) = byteLength u := by
  induction u with
  | nil => cases v <;> simp [bytesCovering, length]
  | cons c u ih =>
    have hc := encoding.width_pos c
    simp [bytesCovering, length, ih, Nat.ne_of_gt hc]

theorem byteColumn_append (u v : Line) :
    encoding.byteColumn (u ++ v) (encoding.length u) = byteLength u := by
  cases encoding with
  | utf8 => rw [length_utf8, byteColumn, floorColumn_append]
  | utf16 => exact bytesCovering_append .utf16 u v
  | utf32 => exact bytesCovering_append .utf32 u v

theorem bytesCovering_append_of_le {u : Line} {n : Nat} (h : n ≤ encoding.length u) (v : Line) :
    encoding.bytesCovering (u ++ v) n = encoding.bytesCovering u n := by
  induction u generalizing n with
  | nil =>
    obtain rfl : n = 0 := Nat.le_zero.mp h
    cases v <;> simp [bytesCovering]
  | cons c u ih =>
    have hu : n - encoding.width c ≤ encoding.length u := by
      simp only [length] at h
      omega
    simp only [List.cons_append, bytesCovering, ih hu]

/-- The column of an offset is found in the text before it. -/
theorem byteColumn_append_of_le {u : Line} {n : Nat} (h : n ≤ encoding.length u) (v : Line) :
    encoding.byteColumn (u ++ v) n = encoding.byteColumn u n := by
  cases encoding with
  | utf8 =>
    rw [length_utf8] at h
    simp only [byteColumn, floorColumn, takeBytes_append_of_le h]
  | utf16 => exact bytesCovering_append_of_le .utf16 h v
  | utf32 => exact bytesCovering_append_of_le .utf32 h v

/-- What is covered ends between two characters. -/
theorem exists_bytesCovering_eq (line : Line) (n : Nat) :
    ∃ u v, line = u ++ v ∧ encoding.bytesCovering line n = byteLength u := by
  induction line generalizing n with
  | nil => exact ⟨[], [], rfl, rfl⟩
  | cons c line ih =>
    by_cases hn : n = 0
    · exact ⟨[], c :: line, rfl, by simp [bytesCovering, hn]⟩
    · obtain ⟨u, v, hline, hu⟩ := ih (n - encoding.width c)
      exact ⟨c :: u, v, by simp [hline], by simp [bytesCovering, hn, hu]⟩

theorem exists_byteColumn_eq (line : Line) (n : Nat) :
    ∃ u v, line = u ++ v ∧ encoding.byteColumn line n = byteLength u := by
  cases encoding with
  | utf8 => exact ⟨takeBytes line n, dropBytes line n, by simp, rfl⟩
  | utf16 => exact exists_bytesCovering_eq .utf16 line n
  | utf32 => exact exists_bytesCovering_eq .utf32 line n

theorem bytesCovering_mono (line : Line) {m n : Nat} (h : m ≤ n) :
    encoding.bytesCovering line m ≤ encoding.bytesCovering line n := by
  induction line generalizing m n with
  | nil => simp [bytesCovering]
  | cons c line ih =>
    by_cases hm : m = 0
    · simp [bytesCovering, hm]
    · have hn : n ≠ 0 := by omega
      have hrest := ih (Nat.sub_le_sub_right h (encoding.width c))
      simp only [bytesCovering, hm, hn, if_false]
      omega

theorem byteColumn_mono (line : Line) {m n : Nat} (h : m ≤ n) :
    encoding.byteColumn line m ≤ encoding.byteColumn line n := by
  cases encoding with
  | utf8 => exact floorColumn_mono line h
  | utf16 => exact bytesCovering_mono .utf16 line h
  | utf32 => exact bytesCovering_mono .utf32 line h

theorem isBoundary_byteColumn (line : Line) (n : Nat) :
    IsBoundary line (encoding.byteColumn line n) := by
  obtain ⟨u, v, hline, hu⟩ := encoding.exists_byteColumn_eq line n
  rw [hline] at hu ⊢
  rw [hu]
  exact floorColumn_append u v

theorem byteColumn_le (line : Line) (n : Nat) : encoding.byteColumn line n ≤ byteLength line := by
  obtain ⟨u, v, hline, hu⟩ := encoding.exists_byteColumn_eq line n
  rw [hu, hline, byteLength_append]
  omega

/-- An offset past the end stands for the end. -/
theorem byteColumn_of_le {line : Line} {n : Nat} (h : encoding.length line ≤ n) :
    encoding.byteColumn line n = byteLength line := by
  have hend := encoding.byteColumn_append line []
  rw [List.append_nil] at hend
  have hmono := encoding.byteColumn_mono line h
  have hle := encoding.byteColumn_le line n
  omega

theorem characterOffset_append {u v : Line} (h : encoding.length (u ++ v) ≤ maxOffset) :
    encoding.characterOffset (u ++ v) (byteLength u) = encoding.length u := by
  rw [length_append] at h
  rw [characterOffset, takeBytes_append]
  omega

theorem characterOffset_byteLength {line : Line} (h : encoding.length line ≤ maxOffset) :
    encoding.characterOffset line (byteLength line) = encoding.length line := by
  have hend := encoding.characterOffset_append (u := line) (v := [])
  rw [List.append_nil] at hend
  exact hend h

/-- Going to a server's offset and back, a column becomes the boundary that it belongs to. -/
theorem byteColumn_characterOffset {line : Line} (h : encoding.length line ≤ maxOffset) (n : Nat) :
    encoding.byteColumn line (encoding.characterOffset line n) = floorColumn line n := by
  have hsplit := takeBytes_append_dropBytes line n
  have hlen : encoding.length (takeBytes line n) ≤ maxOffset := by
    rw [← hsplit, length_append] at h
    omega
  have hcol := encoding.byteColumn_append (takeBytes line n) (dropBytes line n)
  rw [hsplit] at hcol
  rw [characterOffset, Nat.min_eq_left hlen, hcol, floorColumn]

end Encoding
end Autocomplete

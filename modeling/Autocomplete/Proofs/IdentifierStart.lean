import Autocomplete.Proofs.StartColumn
import Mathlib.Data.List.DropRight
import Mathlib.Order.Bounds.Basic

/-! The identifier left of the cursor. It is found by going to the left, first to the end of a character
and from there over whole characters. The search never leaves the line, and what it finds is the longest
run of identifier characters that ends there. -/
namespace Autocomplete
open Text

namespace Text

/-- The first boundary that is met going to the left, one byte at a time. There is none if the line
would be left. -/
def boundaryFrom? (line : Line) : Nat → Option Nat
  | 0 => if IsBoundary line 0 then some 0 else none
  | n + 1 => if IsBoundary line (n + 1) then some (n + 1) else boundaryFrom? line n

/-- The characters of a line, each with the column where it starts; the first one starts at the given
column. -/
def columnsFrom : Nat → Line → List (Nat × Char)
  | _, [] => []
  | start, c :: line => (start, c) :: columnsFrom (start + c.utf8Size) line

theorem isGreatest_floorColumn (line : Line) (n : Nat) :
    IsGreatest {b | IsBoundary line b ∧ b ≤ n} (floorColumn line n) := by
  refine ⟨⟨isBoundary_floorColumn line n, floorColumn_le line n⟩, ?_⟩
  rintro b ⟨hb, hle⟩
  rw [← hb]
  exact floorColumn_mono line hle

/-- Going to the left, the boundary that a column belongs to is met. -/
theorem boundaryFrom?_eq (line : Line) (n : Nat) :
    boundaryFrom? line n = some (floorColumn line n) := by
  induction n with
  | zero =>
    have hzero : IsBoundary line 0 := by rw [IsBoundary, floorColumn, takeBytes_zero, byteLength_nil]
    rw [boundaryFrom?, if_pos hzero, hzero]
  | succ n ih =>
    rw [boundaryFrom?]
    split
    next h => rw [h]
    next h =>
      -- the boundary of `n + 1` is another column, so that it is one of those up to `n`
      have hlt : floorColumn line (n + 1) ≤ n :=
        Nat.le_of_lt_succ (Nat.lt_of_le_of_ne (floorColumn_le line (n + 1)) h)
      have hle := (isGreatest_floorColumn line n).2 ⟨isBoundary_floorColumn line (n + 1), hlt⟩
      have hge := floorColumn_mono line (Nat.le_succ n)
      rw [ih, Nat.le_antisymm hge hle]

theorem floorColumn_min_byteLength (line : Line) (n : Nat) :
    floorColumn line (min n (byteLength line)) = floorColumn line n := by
  rcases Nat.le_total n (byteLength line) with h | h
  · rw [Nat.min_eq_left h]
  · rw [Nat.min_eq_right h, floorColumn_of_le h, floorColumn_of_le Nat.le.refl]

theorem slice?_floorColumn (line : Line) (n : Nat) :
    slice? line 0 (floorColumn line n) = some (takeBytes line n) := by
  have h := slice?_append_left (takeBytes line n) (dropBytes line n)
  rwa [takeBytes_append_dropBytes] at h

theorem columnsFrom_append (start : Nat) (u v : Line) :
    columnsFrom start (u ++ v) = columnsFrom start u ++ columnsFrom (start + byteLength u) v := by
  induction u generalizing start with
  | nil => rfl
  | cons c u ih => simp [columnsFrom, ih, Nat.add_assoc]

theorem map_snd_columnsFrom (start : Nat) (line : Line) :
    (columnsFrom start line).map Prod.snd = line := by
  induction line generalizing start with
  | nil => rfl
  | cons c line ih => rw [columnsFrom, List.map_cons, ih]

end Text

/-- The search for the start of the identifier. It fails where a column would be left of the line or
inside a character. -/
def searchStart? (line : Line) (cursor : Nat) : Option Nat := do
  let stop ← boundaryFrom? line (min cursor (byteLength line))
  let text ← slice? line 0 stop
  let run := (columnsFrom 0 text).reverse.takeWhile fun p => isIdentifier p.2
  some ((run.getLast?.map Prod.fst).getD stop)

/-- What is before the identifier at the end of a text. -/
def beforeIdentifier (text : Line) : Line := text.rdropWhile isIdentifier

/-- The identifier at the end of a text. -/
def lastIdentifier (text : Line) : Line := text.rtakeWhile isIdentifier

theorem beforeIdentifier_append (text : Line) :
    beforeIdentifier text ++ lastIdentifier text = text :=
  List.rdropWhile_append_rtakeWhile

theorem beforeIdentifier_cases (text : Line) : beforeIdentifier text = [] ∨
    ∃ u c, beforeIdentifier text = u ++ [c] ∧ isIdentifier c = false := by
  by_cases h : beforeIdentifier text = []
  · exact .inl h
  · have hlast := List.rdropWhile_last_not isIdentifier text h
    exact .inr ⟨_, _, (List.dropLast_append_getLast h).symm, Bool.eq_false_iff.mpr hlast⟩

theorem naiveStart_eq (line : Line) (cursor : Nat) :
    naiveStart line cursor = byteLength (beforeIdentifier (takeBytes line cursor)) := by
  rw [naiveStart, beforeIdentifier, List.rdropWhile, byteLength_reverse]

theorem takeBytes_naiveStart (line : Line) (cursor : Nat) :
    takeBytes line (naiveStart line cursor) = beforeIdentifier (takeBytes line cursor) := by
  have h := takeBytes_append (beforeIdentifier (takeBytes line cursor))
    (lastIdentifier (takeBytes line cursor) ++ dropBytes line cursor)
  rwa [← List.append_assoc, beforeIdentifier_append, takeBytes_append_dropBytes,
    ← naiveStart_eq] at h

theorem slice?_naiveStart (line : Line) (cursor : Nat) :
    slice? line (naiveStart line cursor) (floorColumn line cursor) =
      some (lastIdentifier (takeBytes line cursor)) := by
  have h := slice?_append (beforeIdentifier (takeBytes line cursor))
    (lastIdentifier (takeBytes line cursor)) (dropBytes line cursor)
  rwa [beforeIdentifier_append, takeBytes_append_dropBytes, ← naiveStart_eq, ← floorColumn] at h

/-- Of the characters up to the cursor, read from the right, those of the identifier are taken. -/
theorem takeWhile_columns (text : Line) :
    (columnsFrom 0 text).reverse.takeWhile (fun p => isIdentifier p.2) =
      (columnsFrom (byteLength (beforeIdentifier text)) (lastIdentifier text)).reverse := by
  conv => lhs; rw [← beforeIdentifier_append text]
  rw [columnsFrom_append, List.reverse_append, Nat.zero_add, List.takeWhile_append_of_pos]
  · rcases beforeIdentifier_cases text with h | ⟨u, c, h, hc⟩
    · simp [h, columnsFrom]
    · simp [h, columnsFrom_append, columnsFrom, hc]
  · intro p hp
    have hmem := List.mem_map_of_mem (f := Prod.snd) (List.mem_reverse.mp hp)
    rw [map_snd_columnsFrom] at hmem
    exact List.mem_rtakeWhile_imp hmem

/-- The search succeeds, and finds the start of the identifier. -/
theorem searchStart?_eq (line : Line) (cursor : Nat) :
    searchStart? line cursor = some (naiveStart line cursor) := by
  have hstop : boundaryFrom? line (min cursor (byteLength line)) = some (floorColumn line cursor) := by
    rw [boundaryFrom?_eq, floorColumn_min_byteLength]
  simp only [searchStart?, hstop, slice?_floorColumn, Option.bind_eq_bind, Option.bind_some,
    takeWhile_columns, List.getLast?_reverse]
  rw [naiveStart_eq, floorColumn]
  have htext := beforeIdentifier_append (takeBytes line cursor)
  cases hw : lastIdentifier (takeBytes line cursor) with
  | nil =>
    rw [hw, List.append_nil] at htext
    rw [htext]
    rfl
  | cons c word => rfl

/-- The search for the identifier left of the cursor succeeds wherever the cursor is. It finds the start
of the longest run of identifier characters that ends at the last boundary up to the cursor: all of the
text in between is part of it, and the character before it is not, if there is one. -/
theorem naiveStart_maximalRun (line : Line) (cursor : Nat) :
    let start := naiveStart line cursor
    searchStart? line cursor = some start ∧ IsBoundary line start ∧
    ∃ stop word, IsGreatest {b | IsBoundary line b ∧ b ≤ cursor} stop ∧ start ≤ stop ∧
      slice? line start stop = some word ∧ (∀ c ∈ word, isIdentifier c = true) ∧
      (start = 0 ∨ ∃ c, (takeBytes line start).getLast? = some c ∧ isIdentifier c = false) := by
  intro start
  refine ⟨searchStart?_eq line cursor, naiveStart_isBoundary line cursor, floorColumn line cursor,
    lastIdentifier (takeBytes line cursor), isGreatest_floorColumn line cursor, ?_,
    slice?_naiveStart line cursor, fun c hc => List.mem_rtakeWhile_imp hc, ?_⟩
  · exact (isGreatest_floorColumn line cursor).2
      ⟨naiveStart_isBoundary line cursor, naiveStart_le line cursor⟩
  · rcases beforeIdentifier_cases (takeBytes line cursor) with h | ⟨u, c, h, hc⟩
    · refine .inl ?_
      rw [show start = _ from naiveStart_eq line cursor, h, byteLength_nil]
    · refine .inr ⟨c, ?_, hc⟩
      rw [takeBytes_naiveStart, h, List.getLast?_concat]

/-- The cursor is inside the last character. -/
theorem naiveStart_maximalRun_insideCharacter :
    searchStart? ['x', ' ', 'ä', 'b', '😀'] 7 = some 2 ∧
    slice? ['x', ' ', 'ä', 'b', '😀'] 2 5 = some ['ä', 'b'] ∧ isIdentifier 'ä' = true := by
  obtain ⟨hsearch, _, stop, word, hstop, _, hslice, hword, _⟩ :=
    naiveStart_maximalRun ['x', ' ', 'ä', 'b', '😀'] 7
  have hstart : naiveStart ['x', ' ', 'ä', 'b', '😀'] 7 = 2 := by decide +kernel
  obtain rfl : stop = 5 := hstop.unique (isGreatest_floorColumn _ 7)
  rw [hstart] at hsearch hslice
  obtain rfl : ['ä', 'b'] = word := Option.some.inj (Eq.trans (by decide +kernel) hslice)
  exact ⟨hsearch, hslice, hword 'ä' (by simp)⟩

end Autocomplete

import Autocomplete.Proofs.Boundary
import Autocomplete.Proofs.Text.Columns

/-! The column where the replaced text starts, in the line of the cursor. The editor's own guess is never
right of the cursor; what servers agree on is only kept inside the line. It depends on the line up to that
place alone. -/
namespace Autocomplete
open Text

namespace Text

theorem byteLength_reverse (line : Line) : byteLength line.reverse = byteLength line := by
  induction line with
  | nil => rfl
  | cons c line ih => simp [ih, Nat.add_comm]

end Text

/-- The guess is the length of the text before the identifier left of the cursor. -/
theorem exists_naiveStart_eq (line : Line) (cursor : Nat) :
    ∃ p, p <+: takeBytes line cursor ∧ naiveStart line cursor = byteLength p := by
  refine ⟨((takeBytes line cursor).reverse.dropWhile isIdentifier).reverse, ?_, ?_⟩
  · rw [← List.reverse_suffix, List.reverse_reverse]
    exact List.dropWhile_suffix _
  · rw [naiveStart, byteLength_reverse]

theorem naiveStart_le (line : Line) (cursor : Nat) : naiveStart line cursor ≤ cursor := by
  obtain ⟨p, ⟨u, hu⟩, hn⟩ := exists_naiveStart_eq line cursor
  have hle := floorColumn_le line cursor
  rw [floorColumn, ← hu, byteLength_append] at hle
  omega

theorem naiveStart_isBoundary (line : Line) (cursor : Nat) :
    IsBoundary line (naiveStart line cursor) := by
  obtain ⟨p, hp, hn⟩ := exists_naiveStart_eq line cursor
  obtain ⟨u, hu⟩ := hp.trans (takeBytes_isPrefix line cursor)
  rw [hn, IsBoundary, ← hu, floorColumn_append]

/-- All ranges that begin on the line begin in its first part or at the end of it. -/
def StartWithin (lineNumber : Nat) (encoding : Encoding) (p : Line) (items : List Item) : Prop :=
  ∀ r ∈ items.filterMap Item.editRange, r.start.line = lineNumber →
    r.start.character ≤ encoding.length p

instance (lineNumber : Nat) (encoding : Encoding) (p : Line) (items : List Item) :
    Decidable (StartWithin lineNumber encoding p items) :=
  inferInstanceAs (Decidable (∀ r ∈ _, _ → _))

/-- The start that a list of items names is the same in all lines with the same first part. -/
theorem resolveStart_append {lineNumber : Nat} {encoding : Encoding} {p : Line} {items : List Item}
    (h : StartWithin lineNumber encoding p items) (u : Line) :
    resolveStart lineNumber (p ++ u) items encoding = resolveStart lineNumber p items encoding := by
  refine Option.ext fun b => ?_
  have hcolumn {character : Nat} (ha : AgreeOn lineNumber items character) :
      encoding.byteColumn (p ++ u) character = encoding.byteColumn p character := by
    obtain ⟨item, hi, r, hr, hl⟩ := ha.any
    rw [← (ha.all item hi r hr hl).2]
    exact encoding.byteColumn_append_of_le (h r (List.mem_filterMap.mpr ⟨item, hi, hr⟩) hl) u
  rw [resolveStart_eq_some_iff, resolveStart_eq_some_iff]
  constructor
  · rintro ⟨character, ha, rfl⟩
    exact ⟨character, ha, hcolumn ha⟩
  · rintro ⟨character, ha, rfl⟩
    exact ⟨character, ha, (hcolumn ha).symm⟩

namespace MergeRequest

section
variable {request : MergeRequest} {replies : ServerMap Reply} {bindings : ServerMap Binding}

theorem Names.isBoundary {server : ServerId} {b : Nat} (h : request.Names replies bindings server b) :
    IsBoundary request.line b := by
  obtain ⟨value, _, hb⟩ := h
  obtain ⟨character, _, rfl⟩ := resolveStart_eq_some_iff.mp hb
  exact Encoding.isBoundary_byteColumn _ _ _

theorem startColumn_isBoundary (hn : IsBoundary request.line request.naiveStart) :
    IsBoundary request.line (request.startColumn (answers replies bindings)) := by
  by_cases h : ∃ b, request.Unanimous replies bindings b
  · obtain ⟨b, hb⟩ := h
    obtain ⟨server, hs⟩ := hb.1
    rw [startColumn_of_unanimous hb]
    exact hs.isBoundary
  · rw [startColumn_of_not_unanimous fun b hb => h ⟨b, hb⟩]
    exact hn

/-- The start is right of a column that the guess does not pass exactly if servers agree on one that
is. -/
theorem lt_startColumn_iff {column : Nat} (hn : request.naiveStart ≤ column) :
    column < request.startColumn (answers replies bindings) ↔
      ∃ b, request.Unanimous replies bindings b ∧ column < b := by
  constructor
  · intro h
    by_cases hu : ∃ b, request.Unanimous replies bindings b
    · obtain ⟨b, hb⟩ := hu
      rw [startColumn_of_unanimous hb] at h
      exact ⟨b, hb, h⟩
    · rw [startColumn_of_not_unanimous fun b hb => hu ⟨b, hb⟩] at h
      omega
  · rintro ⟨b, hb, h⟩
    rwa [startColumn_of_unanimous hb]

/-- Servers agree on the same start in all lines with the same first part. -/
theorem unanimous_line_iff {p line : Line}
    (hold : p <+: line) (hnew : p <+: request.line)
    (h : ∀ server value, replies.find? server = some (.ok value) →
      StartWithin request.lineNumber (encodingIn bindings server) p (Response.ofJson value).items)
    (b : Nat) : { request with line }.Unanimous replies bindings b ↔
      request.Unanimous replies bindings b := by
  obtain ⟨u, rfl⟩ := hold
  obtain ⟨v, hv⟩ := hnew
  have hnames (server : ServerId) (d : Nat) :
      { request with line := p ++ u }.Names replies bindings server d ↔
        request.Names replies bindings server d := by
    unfold Names
    rw [← hv]
    refine exists_congr fun value => and_congr_right fun hr => ?_
    dsimp only
    rw [resolveStart_append (h server value hr), resolveStart_append (h server value hr)]
  simp only [Unanimous, hnames]

end
end MergeRequest
end Autocomplete

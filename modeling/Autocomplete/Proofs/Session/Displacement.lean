import Autocomplete.Proofs.Session.Edits
import Mathlib.Order.MinMax

/-! Edits of a text from which a part of a line was taken out, up to the end of the line. A server counts
as if the part were still there. Its positions before the part and behind the line are the same as ever;
those in the part all come to the place where it was. -/
namespace Autocomplete
open Text

/-- Where an offset comes to when the characters from `start` up to `stop` are taken out of a text. -/
def collapse (start stop i : Nat) : Nat := min i start + (i - stop)

theorem collapse_mono (start stop : Nat) : Monotone (collapse start stop) := by
  intro i j h
  have hmin : min i start ≤ min j start := by omega
  exact Nat.add_le_add hmin (Nat.sub_le_sub_right h stop)

section
variable {before taken after : List Char} {stop i : Nat}

theorem take_of_le (hlen : before.length + taken.length = stop) (h : stop ≤ i) :
    (before ++ taken ++ after).take i = before ++ taken ++ after.take (i - stop) := by
  obtain ⟨d, rfl⟩ := Nat.exists_eq_add_of_le h
  rw [Nat.add_sub_cancel_left, ← hlen, ← List.length_append, List.take_length_add_append]

theorem take_collapse (h : before.length ≤ i) :
    (before ++ after).take (collapse before.length stop i) = before ++ after.take (i - stop) := by
  rw [collapse, Nat.min_eq_right h, List.take_length_add_append]

theorem take_collapse_of_le (hlen : before.length + taken.length = stop) (h : i ≤ before.length) :
    (before ++ after).take (collapse before.length stop i) = before.take i := by
  have hi : i - stop = 0 := by omega
  rw [collapse, Nat.min_eq_left h, hi, Nat.add_zero, List.take_append_of_le_length h]

/-- Where a server's position comes to when a part of its line is taken out: positions in that part
belong to its start. The text may have been changed behind the position. -/
theorem Buffer.toCursor_collapse {b : Buffer} {rest : List Char} {l : Nat}
    (hlen : before.length + taken.length = stop)
    (hb : b.lines = splitLines (before ++ after.take l ++ rest))
    (hrest : EndsLine (after.take l ++ rest)) (hafter : EndsLine after) (htaken : '\n' ∉ taken)
    (hi : i ≤ stop + l) (encoding : Encoding) :
    let p := Position.behind encoding ((before ++ taken ++ after).take i)
    p.toCursor encoding (b.line p.line) =
      Cursor.behind ((before ++ after).take (collapse before.length stop i)) := by
  intro p
  have hbeyond {line : Line} (hl : '\n' ∉ line)
      (hp : (before ++ taken ++ after).take i = before ++ line) :
      p.toCursor encoding (b.line p.line) = Cursor.behind before := by
    simp only [p, hp]
    exact toCursor_past (hb.trans (by rw [List.append_assoc])) hrest hl encoding
  rcases Nat.le_total i before.length with hle | hge
  · have hlines : b.lines =
        splitLines (before.take i ++ (before.drop i ++ after.take l ++ rest)) := by
      rw [hb]
      congr 1
      simp only [← List.append_assoc, List.take_append_drop]
    simp only [p, take_collapse_of_le hlen hle, List.append_assoc before,
      List.take_append_of_le_length hle]
    exact toCursor_behind hlines encoding
  · rw [take_collapse hge]
    by_cases hnone : after.take (i - stop) = []
    · -- In the part itself and up to the line break behind it, every position is past the line.
      have hline : (before ++ taken ++ after).take i =
          before ++ taken.take (i - before.length) := by
        rw [List.take_append, List.length_append, hlen, hnone, List.append_nil, List.take_append,
          List.take_of_length_le hge]
      rw [hnone, List.append_nil]
      exact hbeyond (fun hm => htaken (List.mem_of_mem_take hm)) hline
    · -- Behind the next line break, places are the same whether the part is taken out or not.
      have hle : stop ≤ i := by
        by_contra hlt
        exact hnone (by rw [Nat.sub_eq_zero_of_le (by omega), List.take_zero])
      have hfull : (before ++ taken ++ after).take i = before ++ taken ++ after.take (i - stop) :=
        take_of_le hlen hle
      have hsplit : after.take l =
          after.take (i - stop) ++ (after.drop (i - stop)).take (l - (i - stop)) := by
        rw [← List.take_add, Nat.add_sub_cancel' (by omega)]
      have hlines : b.lines = splitLines (before ++ after.take (i - stop) ++
          ((after.drop (i - stop)).take (l - (i - stop)) ++ rest)) := by
        rw [hb, hsplit]
        simp only [List.append_assoc]
      have hp : p = Position.behind encoding (before ++ after.take (i - stop)) := by
        obtain ⟨next, hnext⟩ := (hafter.take (i - stop)).cases.resolve_left hnone
        simp only [p, hfull, hnext, Position.behind_append_break,
          Position.behind_append_line encoding before htaken]
      rw [hp]
      exact toCursor_behind hlines encoding

end

namespace Replacement

/-- A replacement that leaves what is before an offset as it is. -/
def clip (i : Nat) (r : Replacement) : Replacement := { r with start := max i r.start }

/-- What a replacement does to a text of which a part is taken out before and put back afterwards: in the
part nothing is replaced, and what belongs into it is put in before it. -/
def displaced (start stop : Nat) (r : Replacement) : Replacement :=
  if r.stop ≤ start then r
  else if r.stop ≤ stop then ⟨start, start, r.text⟩
  else r.clip stop

/-- A replacement begins in a part of the text or at its end, and reaches beyond the start of the part. -/
def BeginsIn (start stop : Nat) (r : Replacement) : Prop := start < r.stop ∧ r.start ≤ stop

instance (start stop : Nat) (r : Replacement) : Decidable (r.BeginsIn start stop) :=
  inferInstanceAs (Decidable (_ ∧ _))

theorem clip_of_le {i : Nat} {r : Replacement} (h : i ≤ r.start) : r.clip i = r := by
  rw [clip, Nat.max_eq_right h]

theorem displaced_before {start stop : Nat} {r : Replacement} (h : r.stop ≤ start) :
    r.displaced start stop = r := if_pos h

theorem displaced_within {start stop : Nat} {r : Replacement} (h : start < r.stop)
    (hs : r.stop ≤ stop) : r.displaced start stop = ⟨start, start, r.text⟩ := by
  rw [displaced, if_neg (Nat.not_le.mpr h), if_pos hs]

theorem displaced_beyond {start stop : Nat} {r : Replacement} (h : start ≤ stop)
    (hs : stop < r.stop) : r.displaced start stop = r.clip stop := by
  rw [displaced, if_neg (by omega), if_neg (by omega)]

theorem le_displaced {start stop : Nat} {r : Replacement} (h : start ≤ stop) (hr : start ≤ r.start) :
    start ≤ (r.displaced start stop).start := by
  unfold displaced
  split
  · exact hr
  · split
    · exact Nat.le_refl start
    · exact h.trans (Nat.le_max_left _ _)

theorem endsLine_substituteFrom {rs : List Replacement} {text : List Char} {i : Nat}
    (ht : EndsLine text) (h : ∀ r ∈ rs, i < r.start) : EndsLine (substituteFrom rs i text) := by
  have hi : inserted rs i = [] := inserted_eq_nil fun r hr => Nat.ne_of_gt (h r hr)
  rcases ht.cases with rfl | ⟨rest, rfl⟩
  · simpa [substituteFrom, hi] using ht
  · have hc : rs.any (·.covers i) = false := by
      simp only [List.any_eq_false, covers, Bool.and_eq_true, decide_eq_true_eq, not_and]
      intro r hr hle
      have := h r hr
      omega
    simp [substituteFrom, hi, hc, EndsLine]

end Replacement

namespace Session
open Cursor

section
variable {encoding : Encoding} {lines : List Line} {before taken after : List Char} {stop : Nat}
  (hl : Autocomplete.Unbroken lines) (ht : joinLines lines = before ++ taken ++ after)
  (hlen : before.length + taken.length = stop) (htaken : '\n' ∉ taken) (hafter : EndsLine after)
include hl ht hlen htaken hafter

/-- One edit that ends behind the part, where the text up to its end is still there. -/
theorem applyEdit_beyond {s : Session} {e : TextEdit} {rest : List Char}
    (hes : e.range.start.Inside encoding lines) (het : e.range.stop.Inside encoding lines)
    (hstart : before.length ≤ (e.placed encoding lines).start)
    (hstop : stop < (e.placed encoding lines).stop)
    (hs : s.buffer.lines =
      splitLines (before ++ after.take ((e.placed encoding lines).stop - stop) ++ rest))
    (hc : s.buffer.cursor = behind before) :
    (applyEdit encoding s e).buffer.lines = splitLines (before ++
        after.take ((e.placed encoding lines).start - stop) ++ e.newText.toList ++ rest) ∧
      (applyEdit encoding s e).buffer.cursor = behind before := by
  obtain ⟨hps, hls⟩ := hes.eq_behind hl
  obtain ⟨hpt, hlt⟩ := het.eq_behind hl
  simp only [TextEdit.placed] at hstart hstop hs ⊢
  generalize offset encoding lines e.range.start = i at *
  generalize offset encoding lines e.range.stop = j at *
  have htotal : (joinLines lines).length = stop + after.length := by
    rw [ht, List.length_append, List.length_append, hlen]
  have hfirst : after.take (max i j - stop) ≠ [] := by
    intro hnil
    have := congrArg List.length hnil
    simp only [List.length_take, List.length_nil] at this
    omega
  have hends := (hafter.take (max i j - stop)).append hfirst rest
  have hcut {k : Nat} (hk : before.length ≤ k) :
      (before ++ after).take (collapse before.length stop k) = before ++ after.take (k - stop) :=
    take_collapse hk
  have hplace {k : Nat} (hk : k ≤ max i j) := Buffer.toCursor_collapse hlen hs hends hafter htaken
    (i := k) (by omega) encoding
  have hplace_start := hplace (Nat.le_max_left i j)
  have hplace_stop := hplace (Nat.le_max_right i j)
  rw [← ht, ← hps] at hplace_start
  rw [← ht, ← hpt] at hplace_stop
  rw [← hcut (hstart.trans (Nat.le_max_left i j)), (collapse_mono _ _).map_max] at hs
  obtain ⟨hlines, hcursor⟩ := applyEdit_between hs hplace_start hplace_stop
  rw [← (collapse_mono _ _).map_max, hcut (hstart.trans (Nat.le_max_left i j)), hcut hstart, hc] at hcursor
  refine ⟨by rw [hlines, hcut hstart], hcursor.trans ?_⟩
  exact Buffer.moveCursor_before (not_before_behind before _) (before_behind before hfirst) _

/-- Edits that end behind the part leave what is before it as it is, and with it the cursor. From any
offset on that they are not before, they do what they would have done with the part in its place. -/
theorem foldr_applyEdit_drop {s : Session} (hs : s.buffer.lines = splitLines (before ++ after))
    (hc : s.buffer.cursor = behind before) {edits : List TextEdit}
    (hi : ∀ e ∈ edits, e.range.start.Inside encoding lines ∧ e.range.stop.Inside encoding lines)
    (hp : edits.Pairwise fun a b =>
      (a.placed encoding lines).stop ≤ (b.placed encoding lines).start)
    (hbeyond : ∀ e ∈ edits, before.length ≤ (e.placed encoding lines).start ∧
      stop < (e.placed encoding lines).stop)
    {i : Nat} (hle : stop ≤ i)
    (hstart : ∀ e ∈ edits, i ≤ max stop (e.placed encoding lines).start) :
    let t := edits.foldr (fun e s => applyEdit encoding s e) s
    ∃ rest, t.buffer.lines = splitLines (before ++ rest) ∧ t.buffer.cursor = behind before ∧
      before ++ taken ++ rest = (joinLines lines).take i ++ Replacement.substituteFrom
        (edits.map fun e => (e.placed encoding lines).clip stop) i ((joinLines lines).drop i) := by
  induction edits generalizing i with
  | nil => exact ⟨after, hs, hc, by simp [Replacement.substituteFrom_nil, ht]⟩
  | cons e edits ih =>
    intro t
    let r := e.placed encoding lines
    obtain ⟨⟨hes, het⟩, hrest⟩ := List.forall_mem_cons.mp hi
    obtain ⟨he, hedits⟩ := List.pairwise_cons.mp hp
    obtain ⟨⟨hfrom, hto⟩, hbeyonds⟩ := List.forall_mem_cons.mp hbeyond
    have hordered : max stop r.start ≤ r.stop :=
      Nat.max_le.mpr ⟨Nat.le_of_lt hto, Nat.le_max_left _ _⟩
    have hend : r.stop ≤ (joinLines lines).length :=
      Nat.max_le.mpr ⟨(hes.eq_behind hl).2, (het.eq_behind hl).2⟩
    have hfollow : ∀ d ∈ edits, r.stop ≤ max stop (d.placed encoding lines).start :=
      fun d hd => (he d hd).trans (Nat.le_max_right _ _)
    have hfollows : ∀ x ∈ edits.map fun d => (d.placed encoding lines).clip stop,
        r.stop ≤ x.start := by
      simpa [Replacement.clip] using hfollow
    have hfull {k : Nat} (hk : stop ≤ k) :
        (joinLines lines).take k = before ++ taken ++ after.take (k - stop) := by
      rw [ht]
      exact take_of_le hlen hk
    obtain ⟨rest, hlines, hcursor, hrest⟩ := ih hrest hedits hbeyonds (Nat.le_of_lt hto) hfollow
    let changed := Replacement.substituteFrom
      (edits.map fun d => (d.placed encoding lines).clip stop) r.stop ((joinLines lines).drop r.stop)
    have hcons : (joinLines lines).take i ++ Replacement.substituteFrom
        ((e :: edits).map fun d => (d.placed encoding lines).clip stop) i
          ((joinLines lines).drop i) =
        (joinLines lines).take (max stop r.start) ++ e.newText.toList ++ changed :=
      Replacement.substituteFrom_cons (hstart e (by simp)) hordered hend hfollows
    change _ = (joinLines lines).take r.stop ++ changed at hrest
    rw [hfull (Nat.le_of_lt hto), List.append_assoc (before ++ taken)] at hrest
    rw [List.append_cancel_left hrest, ← List.append_assoc] at hlines
    obtain ⟨hlines', hcursor'⟩ :=
      applyEdit_beyond hl ht hlen htaken hafter hes het hfrom hto hlines hcursor
    refine ⟨after.take (r.start - stop) ++ e.newText.toList ++ changed, ?_, hcursor', ?_⟩
    · rw [← List.append_assoc, ← List.append_assoc]
      exact hlines'
    · have hsub : max stop r.start - stop = r.start - stop := by omega
      rw [hcons, hfull (Nat.le_max_left _ _), hsub]
      simp only [List.append_assoc]

theorem foldr_applyEdit_beyond {s : Session} (hs : s.buffer.lines = splitLines (before ++ after))
    (hc : s.buffer.cursor = behind before) {edits : List TextEdit}
    (hi : ∀ e ∈ edits, e.range.start.Inside encoding lines ∧ e.range.stop.Inside encoding lines)
    (hp : edits.Pairwise fun a b =>
      (a.placed encoding lines).stop ≤ (b.placed encoding lines).start)
    (hbeyond : ∀ e ∈ edits, before.length ≤ (e.placed encoding lines).start ∧
      stop < (e.placed encoding lines).stop) :
    let t := edits.foldr (fun e s => applyEdit encoding s e) s
    let rs := edits.map fun e => (e.placed encoding lines).displaced before.length stop
    ∃ rest, t.buffer.lines = splitLines (before ++ rest) ∧ t.buffer.cursor = behind before ∧
      rest = Replacement.substituteFrom rs stop after ∧
      taken ++ rest = Replacement.substituteFrom rs before.length (taken ++ after) := by
  intro t rs
  have hrs : rs = edits.map fun e => (e.placed encoding lines).clip stop :=
    List.map_congr_left fun e he => Replacement.displaced_beyond (by omega) (hbeyond e he).2
  obtain ⟨rest, hlines, hcursor, hrest⟩ := foldr_applyEdit_drop hl ht hlen htaken hafter hs hc hi hp
    hbeyond (Nat.le_refl stop) fun e _ => Nat.le_max_left _ _
  have hfull : stop = (before ++ taken).length := by rw [List.length_append, hlen]
  rw [ht, hfull, List.take_left, List.drop_left, ← hfull, ← hrs] at hrest
  have hrest := List.append_cancel_left hrest
  have hbehind : ∀ r ∈ rs, before.length + taken.length ≤ r.start := by
    simp [hrs, hlen, Replacement.clip]
  exact ⟨rest, hlines, hcursor, hrest, by rw [Replacement.substituteFrom_append hbehind, hlen, hrest]⟩

/-- An edit that is to change the part comes before it, and with it the cursor moves. -/
theorem applyEdit_within {s : Session} {e : TextEdit} {rest : List Char}
    (hes : e.range.start.Inside encoding lines) (het : e.range.stop.Inside encoding lines)
    (hstart : before.length ≤ (e.placed encoding lines).start)
    (hstop : (e.placed encoding lines).stop ≤ stop)
    (hs : s.buffer.lines = splitLines (before ++ rest)) (hrest : EndsLine rest)
    (hc : s.buffer.cursor = behind before) :
    (applyEdit encoding s e).buffer.lines = splitLines (before ++ e.newText.toList ++ rest) ∧
      (applyEdit encoding s e).buffer.cursor = behind (before ++ e.newText.toList) := by
  have hps := (hes.eq_behind hl).1
  have hpt := (het.eq_behind hl).1
  simp only [TextEdit.placed] at hstart hstop
  generalize offset encoding lines e.range.start = i at *
  generalize offset encoding lines e.range.stop = j at *
  have hnone : s.buffer.lines = splitLines (before ++ after.take 0 ++ rest) := by
    rw [List.take_zero, List.append_nil, hs]
  have hplace {k : Nat} (hk : k ≤ stop) := Buffer.toCursor_collapse hlen hnone
    (by rwa [List.take_zero, List.nil_append]) hafter htaken (i := k) (by omega) encoding
  obtain ⟨histop, hjstop⟩ := Nat.max_le.mp hstop
  have hplace_start := hplace histop
  have hplace_stop := hplace hjstop
  rw [← ht, ← hps] at hplace_start
  rw [← ht, ← hpt] at hplace_stop
  have hi : collapse before.length stop i = before.length := by
    rw [collapse, Nat.min_eq_right hstart, Nat.sub_eq_zero_of_le histop, Nat.add_zero]
  have hj : collapse before.length stop j ≤ before.length := by
    rw [collapse, Nat.sub_eq_zero_of_le hjstop, Nat.add_zero]
    exact Nat.min_le_right _ _
  have hcut : (before ++ after).take (max (collapse before.length stop i)
      (collapse before.length stop j)) = before := by rw [hi, Nat.max_eq_left hj, List.take_left]
  rw [← hcut] at hs
  obtain ⟨hlines, hcursor⟩ := applyEdit_between hs hplace_start hplace_stop
  rw [hi, List.take_left] at hlines
  rw [hcut, hi, List.take_left, hc] at hcursor
  have hmove := Buffer.moveCursor_behind (behind before) before (before ++ e.newText.toList) []
  rw [List.append_nil, List.append_nil] at hmove
  exact ⟨hlines, hcursor.trans hmove⟩

/-- Edits that are not before the part. At most one of them begins on it. -/
theorem foldr_applyEdit_from {s : Session} (hs : s.buffer.lines = splitLines (before ++ after))
    (hc : s.buffer.cursor = behind before) {edits : List TextEdit}
    (hi : ∀ e ∈ edits, e.range.start.Inside encoding lines ∧ e.range.stop.Inside encoding lines)
    (hp : edits.Pairwise fun a b =>
      (a.placed encoding lines).stop ≤ (b.placed encoding lines).start)
    (hfrom : ∀ e ∈ edits, before.length ≤ (e.placed encoding lines).start ∧
      before.length < (e.placed encoding lines).stop)
    (honce : edits.Pairwise fun a b => ¬((a.placed encoding lines).BeginsIn before.length stop ∧
      (b.placed encoding lines).BeginsIn before.length stop)) :
    let t := edits.foldr (fun e s => applyEdit encoding s e) s
    ∃ moved rest, t.buffer.lines = splitLines (before ++ moved ++ rest) ∧
      t.buffer.cursor = behind (before ++ moved) ∧
      moved ++ taken ++ rest = Replacement.substituteFrom
        (edits.map fun e => (e.placed encoding lines).displaced before.length stop) before.length
        (taken ++ after) := by
  cases edits with
  | nil => exact ⟨[], after, by simpa using hs, by simpa using hc, by
      simp [Replacement.substituteFrom_nil]⟩
  | cons x edits =>
    intro t
    obtain ⟨⟨hxs, hxt⟩, hinside⟩ := List.forall_mem_cons.mp hi
    obtain ⟨hx, hedits⟩ := List.pairwise_cons.mp hp
    obtain ⟨⟨hxfrom, hxto⟩, hfroms⟩ := List.forall_mem_cons.mp hfrom
    have hordered (e : TextEdit) : (e.placed encoding lines).start ≤ (e.placed encoding lines).stop :=
      Nat.le_max_left _ _
    by_cases hin : (x.placed encoding lines).stop ≤ stop
    · have hapart : ∀ d ∈ edits, stop < (d.placed encoding lines).start := by
        intro d hd
        have hd' := (List.pairwise_cons.mp honce).1 d hd
        have := hfroms d hd
        have := hordered x
        simp only [Replacement.BeginsIn] at hd'
        omega
      obtain ⟨rest, hlines, hcursor, hrest, hwhole⟩ := foldr_applyEdit_beyond hl ht hlen htaken
        hafter hs hc hinside hedits
        fun d hd => ⟨(hfroms d hd).1, (hapart d hd).trans_le (hordered d)⟩
      have hbehind : ∀ r ∈ edits.map fun e =>
          (e.placed encoding lines).displaced before.length stop, stop < r.start := by
        intro r hr
        obtain ⟨d, hd, rfl⟩ := List.mem_map.mp hr
        have hd' := hapart d hd
        rw [Replacement.displaced_beyond (by omega) (hd'.trans_le (hordered d))]
        exact hd'.trans_le (Nat.le_max_right _ _)
      have hends : EndsLine rest := hrest ▸ Replacement.endsLine_substituteFrom hafter hbehind
      obtain ⟨hlines', hcursor'⟩ :=
        applyEdit_within hl ht hlen htaken hafter hxs hxt hxfrom hin hlines hends hcursor
      refine ⟨x.newText.toList, rest, hlines', hcursor', ?_⟩
      rw [List.map_cons, Replacement.displaced_within hxto hin, List.append_assoc, hwhole]
      have hfirst := Replacement.substituteFrom_first (u := [])
        (r := ⟨before.length, before.length, x.newText.toList⟩) rfl
        (fun r hr => Nat.le_of_lt ((by omega : before.length ≤ stop).trans_lt (hbehind r hr)))
        (taken ++ after)
      exact hfirst.symm
    · have hbeyond : ∀ d ∈ x :: edits, before.length ≤ (d.placed encoding lines).start ∧
          stop < (d.placed encoding lines).stop := by
        refine List.forall_mem_cons.mpr ⟨⟨hxfrom, by omega⟩, fun d hd => ⟨(hfroms d hd).1, ?_⟩⟩
        have := hx d hd
        have := hordered d
        omega
      obtain ⟨rest, hlines, hcursor, -, hrest⟩ :=
        foldr_applyEdit_beyond hl ht hlen htaken hafter hs hc hi hp hbeyond
      exact ⟨[], rest, by rwa [List.append_nil], by rwa [List.append_nil], hrest⟩

end

/-- In sorted edits, those before a place come first. -/
theorem exists_split_edits {encoding : Encoding} {lines : List Line} {place : Nat}
    {edits : List TextEdit}
    (hp : edits.Pairwise fun a b =>
      (a.placed encoding lines).stop ≤ (b.placed encoding lines).start)
    (h : ∀ e ∈ edits, (e.placed encoding lines).stop ≤ place ∨
      place ≤ (e.placed encoding lines).start) :
    ∃ left right, edits = left ++ right ∧
      (∀ e ∈ left, (e.placed encoding lines).stop ≤ place) ∧
      ∀ e ∈ right, place ≤ (e.placed encoding lines).start ∧
        place < (e.placed encoding lines).stop := by
  induction edits with
  | nil => exact ⟨[], [], rfl, by simp, by simp⟩
  | cons e edits ih =>
    obtain ⟨he, hedits⟩ := List.pairwise_cons.mp hp
    obtain ⟨hplace, hplaces⟩ := List.forall_mem_cons.mp h
    by_cases hbefore : (e.placed encoding lines).stop ≤ place
    · obtain ⟨left, right, rfl, hleft, hright⟩ := ih hedits hplaces
      exact ⟨e :: left, right, rfl, List.forall_mem_cons.mpr ⟨hbefore, hleft⟩, hright⟩
    · refine ⟨[], e :: edits, rfl, by simp, List.forall_mem_cons.mpr ⟨by omega, ?_⟩⟩
      intro d hd
      have hfollows := he d hd
      have hordered : (d.placed encoding lines).start ≤ (d.placed encoding lines).stop :=
        Nat.le_max_left _ _
      omega

end Session
end Autocomplete

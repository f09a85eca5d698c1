import Autocomplete.Proofs.Buffer.Cursor
import Autocomplete.Proofs.Sorting
import Autocomplete.Proofs.Text.Substitution
import Autocomplete.Session.Acceptance

/-! Edits of a server are applied one after the other, each to what the ones before it left, and yet
the outcome is that of all edits at once. The last one in the text comes first: what it leaves
before its start is the text of the beginning, in which the others still have their places. -/
namespace Autocomplete
open Text

/-- The number of characters in the shortest initial part that has at least `n` code units, or in the
whole line. -/
def Encoding.charactersCovering (encoding : Encoding) : Line → Nat → Nat
  | [], _ => 0
  | c :: line, n =>
    if n = 0 then 0 else 1 + encoding.charactersCovering line (n - encoding.width c)

/-- How many characters of a document are before a place, counting line breaks. -/
def offset (encoding : Encoding) : List Line → Position → Nat
  | [], _ => 0
  | line :: _, ⟨0, character⟩ => encoding.charactersCovering line character
  | line :: rest, ⟨n + 1, character⟩ => line.length + 1 + offset encoding rest ⟨n, character⟩

/-- A place on a line of the document, between two of its characters or at one of its ends. -/
def Position.Inside (encoding : Encoding) (lines : List Line) (p : Position) : Prop :=
  ∃ u v, lines[p.line]? = some (u ++ v) ∧ encoding.length u = p.character

/-- What an edit replaces. A range that ends before it starts is empty. -/
def TextEdit.placed (encoding : Encoding) (lines : List Line) (e : TextEdit) : Replacement where
  start := offset encoding lines e.range.start
  stop := max (offset encoding lines e.range.start) (offset encoding lines e.range.stop)
  text := e.newText.toList

theorem Encoding.charactersCovering_append (encoding : Encoding) (u v : Line) :
    encoding.charactersCovering (u ++ v) (encoding.length u) = u.length := by
  induction u with
  | nil => cases v <;> simp [charactersCovering, length]
  | cons c u ih =>
    have hc := encoding.width_pos c
    simp [charactersCovering, length, ih, Nat.ne_of_gt hc, Nat.add_comm 1]

/-- A place in a document is the one behind the text before it. -/
theorem Position.Inside.exists_append {encoding : Encoding} {lines : List Line} {p : Position}
    (h : p.Inside encoding lines) (hl : Unbroken lines) :
    ∃ u v, joinLines lines = u ++ v ∧ u.length = offset encoding lines p ∧
      p = Position.behind encoding u := by
  obtain ⟨n, character⟩ := p
  induction lines generalizing n with
  | nil =>
    obtain ⟨u, v, hline, _⟩ := h
    simp at hline
  | cons line rest ih =>
    obtain ⟨hline, hrest⟩ := List.forall_mem_cons.mp hl
    obtain ⟨u, v, hu, rfl⟩ := h
    cases n with
    | zero =>
      obtain rfl : line = u ++ v := by simpa using hu
      have hs : splitLines u = [] ++ [u] :=
        splitLines_of_notMem fun hm => hline (List.mem_append_left v hm)
      refine ⟨u, joinLines (v :: rest), ?_, ?_, (Position.behind_eq encoding hs).symm⟩
      · cases rest <;> simp [joinLines]
      · rw [offset, Encoding.charactersCovering_append]
    | succ n =>
      have hn : rest ≠ [] := by
        rintro rfl
        simp at hu
      obtain ⟨before, after, hj, hlen, hp⟩ := ih hrest n ⟨u, v, hu, rfl⟩
      obtain ⟨init, last, hb⟩ := exists_splitLines_eq_concat before
      have hs : splitLines (line ++ '\n' :: before) = (line :: init) ++ [last] := by
        rw [splitLines_line hline, hb]
        rfl
      refine ⟨line ++ '\n' :: before, after, ?_, ?_, ?_⟩
      · rw [joinLines_cons line hn, hj]
        simp
      · simp [offset, hlen, Nat.add_assoc, Nat.add_comm 1]
      · rw [Position.behind_eq encoding hb] at hp
        obtain ⟨rfl, hc⟩ := Position.mk.inj hp
        rw [Position.behind_eq encoding hs, hc]
        rfl

theorem Position.Inside.eq_behind {encoding : Encoding} {lines : List Line} {p : Position}
    (h : p.Inside encoding lines) (hl : Unbroken lines) :
    p = Position.behind encoding ((joinLines lines).take (offset encoding lines p)) ∧
      offset encoding lines p ≤ (joinLines lines).length := by
  obtain ⟨u, v, hj, hu, hp⟩ := h.exists_append hl
  rw [hj, ← hu, List.take_left]
  exact ⟨hp, by simp⟩

theorem Position.behind_take_lt (encoding : Encoding) {text : List Char} {i j : Nat} (h : i < j)
    (hj : j ≤ text.length) :
    (Position.behind encoding (text.take i)).line < (Position.behind encoding (text.take j)).line ∨
      (Position.behind encoding (text.take i)).line =
        (Position.behind encoding (text.take j)).line ∧
      (Position.behind encoding (text.take i)).character <
        (Position.behind encoding (text.take j)).character := by
  have hne : (text.drop i).take (j - i) ≠ [] := by
    intro hnil
    have := congrArg List.length hnil
    simp only [List.length_take, List.length_drop, List.length_nil] at this
    omega
  have hsplit : text.take j = text.take i ++ (text.drop i).take (j - i) := by
    rw [← List.take_add, Nat.add_sub_cancel' (Nat.le_of_lt h)]
  rw [hsplit]
  exact behind_lt encoding (text.take i) hne

namespace Session

theorem startsBefore_trans (a b c : TextEdit) (hab : startsBefore a b = true)
    (hbc : startsBefore b c = true) : startsBefore a c = true := by
  simp only [startsBefore, Bool.or_eq_true, Bool.and_eq_true, decide_eq_true_eq,
    beq_iff_eq] at *
  omega

theorem startsBefore_total (a b : TextEdit) : (startsBefore a b || startsBefore b a) = true := by
  simp only [startsBefore, Bool.or_eq_true, Bool.and_eq_true, decide_eq_true_eq, beq_iff_eq]
  omega

section
variable {encoding : Encoding} {lines : List Line}

/-- Servers and offsets agree on which of two edits starts first. -/
theorem startsBefore_iff (hl : Unbroken lines) {a b : TextEdit}
    (ha : a.range.start.Inside encoding lines) (hb : b.range.start.Inside encoding lines) :
    startsBefore a b = true ↔ (a.placed encoding lines).start ≤ (b.placed encoding lines).start := by
  obtain ⟨hpa, hla⟩ := ha.eq_behind hl
  obtain ⟨hpb, hlb⟩ := hb.eq_behind hl
  simp only [startsBefore, TextEdit.placed, Bool.or_eq_true, Bool.and_eq_true, decide_eq_true_eq,
    beq_iff_eq]
  rcases Nat.lt_trichotomy (offset encoding lines a.range.start)
    (offset encoding lines b.range.start) with hlt | heq | hlt
  · have h := Position.behind_take_lt encoding hlt hlb
    rw [← hpa, ← hpb] at h
    omega
  · have h : a.range.start = b.range.start := by rw [hpa, heq, ← hpb]
    simp [h]
  · have h := Position.behind_take_lt encoding hlt hla
    rw [← hpa, ← hpb] at h
    omega

end

theorem mergeSort_filter_start (edits : List TextEdit) (p : Position) :
    (edits.mergeSort startsBefore).filter (·.range.start = p) =
      edits.filter (·.range.start = p) := by
  apply filter_mergeSort_of_pairwise startsBefore_trans startsBefore_total
  rw [List.pairwise_iff_forall_sublist]
  intro a b hab
  have ha : a.range.start = p := by simpa using (List.mem_filter.mp (hab.subset (by simp))).2
  have hb : b.range.start = p := by simpa using (List.mem_filter.mp (hab.subset (by simp))).2
  simp [startsBefore, ha, hb]

theorem start_eq_of_startsBefore {a b : TextEdit} (hab : startsBefore a b = true)
    (hba : startsBefore b a = true) : a.range.start = b.range.start := by
  obtain ⟨⟨⟨l, c⟩, _⟩, _⟩ := a
  obtain ⟨⟨⟨l', c'⟩, _⟩, _⟩ := b
  simp only [startsBefore, Bool.or_eq_true, Bool.and_eq_true, decide_eq_true_eq,
    beq_iff_eq] at hab hba
  simp only [Position.mk.injEq]
  omega

/-- Sorted edits are determined by those at each place. -/
theorem eq_of_filter_start_eq {edits others : List TextEdit}
    (he : edits.Pairwise (startsBefore · · = true)) (ho : others.Pairwise (startsBefore · · = true))
    (h : ∀ p, edits.filter (·.range.start = p) = others.filter (·.range.start = p)) :
    edits = others := by
  have hmem {xs ys : List TextEdit}
      (h : ∀ p, xs.filter (·.range.start = p) = ys.filter (·.range.start = p)) (e : TextEdit)
      (hx : e ∈ xs) : e ∈ ys := by
    have : e ∈ xs.filter (·.range.start = e.range.start) := by simp [hx]
    rw [h] at this
    exact (List.mem_filter.mp this).1
  induction edits generalizing others with
  | nil =>
    cases others with
    | nil => rfl
    | cons b others => exact absurd (hmem (fun p => (h p).symm) b (by simp)) (by simp)
  | cons a edits ih =>
    cases others with
    | nil => exact absurd (hmem h a (by simp)) (by simp)
    | cons b others =>
      obtain ⟨ha, hedits⟩ := List.pairwise_cons.mp he
      obtain ⟨hb, hothers⟩ := List.pairwise_cons.mp ho
      have hrefl (e : TextEdit) : startsBefore e e = true := by simp [startsBefore]
      have hab : startsBefore a b = true := by
        rcases List.mem_cons.mp (hmem (fun p => (h p).symm) b (by simp)) with rfl | hm
        · exact hrefl b
        · exact ha b hm
      have hba : startsBefore b a = true := by
        rcases List.mem_cons.mp (hmem h a (by simp)) with rfl | hm
        · exact hrefl a
        · exact hb a hm
      have hs := start_eq_of_startsBefore hab hba
      have hhead := h a.range.start
      simp only [List.filter_cons, hs, decide_true, if_true] at hhead
      obtain ⟨rfl, _⟩ := List.cons.inj hhead
      refine congrArg (a :: ·) (ih hedits hothers ?_)
      intro p
      have hp := h p
      simp only [List.filter_cons] at hp
      split at hp
      · exact (List.cons.inj hp).2
      · exact hp

/-- Only the order of edits with the same start matters. -/
theorem applyEdits_congr (s : Session) (server : ServerId) {edits others : List TextEdit}
    (h : ∀ p, others.filter (·.range.start = p) = edits.filter (·.range.start = p)) :
    s.applyEdits server others = s.applyEdits server edits := by
  have hsorted (l : List TextEdit) := List.pairwise_mergeSort startsBefore_trans startsBefore_total l
  have heq : others.mergeSort startsBefore = edits.mergeSort startsBefore := by
    apply eq_of_filter_start_eq (hsorted others) (hsorted edits)
    intro p
    rw [mergeSort_filter_start, mergeSort_filter_start, h]
  rw [applyEdits, heq, applyEdits]

theorem applyEdits_perm (s : Session) (server : ServerId) {edits others : List TextEdit}
    (hp : others.Perm edits) (hd : edits.Pairwise fun a b => a.range.start ≠ b.range.start) :
    s.applyEdits server others = s.applyEdits server edits := by
  apply applyEdits_congr
  intro p
  have hfilter := hp.filter (·.range.start = p)
  cases hf : edits.filter (·.range.start = p) with
  | nil =>
    rw [hf] at hfilter
    exact hfilter.eq_nil
  | cons a rest =>
    cases rest with
    | nil =>
      rw [hf] at hfilter
      exact List.perm_singleton.mp hfilter
    | cons b rest =>
      have hall : ∀ e ∈ a :: b :: rest, e.range.start = p := by
        intro e he
        rw [← hf] at he
        simpa using (List.mem_filter.mp he).2
      have hab : [a, b].Sublist edits := by
        have hsub : (a :: b :: rest).Sublist edits := hf ▸ List.filter_sublist
        exact (by simp : [a, b].Sublist (a :: b :: rest)).trans hsub
      exact absurd ((hall a (by simp)).trans (hall b (by simp)).symm)
        (List.pairwise_iff_forall_sublist.mp hd hab)

/-- The text between two offsets is replaced, where what stands behind both may already have
changed. -/
theorem applyEdit_between {encoding : Encoding} {s : Session} {e : TextEdit} {text rest : List Char}
    {i j : Nat} (hs : s.buffer.lines = splitLines (text.take (max i j) ++ rest))
    (hstart : e.range.start.toCursor encoding (s.buffer.line e.range.start.line) =
      Cursor.behind (text.take i))
    (hstop : e.range.stop.toCursor encoding (s.buffer.line e.range.stop.line) =
      Cursor.behind (text.take j)) :
    (applyEdit encoding s e).buffer.lines =
        splitLines (text.take i ++ e.newText.toList ++ rest) ∧
      (applyEdit encoding s e).buffer.cursor =
        Buffer.moveCursor (Cursor.behind (text.take i)) (Cursor.behind (text.take (max i j)))
          (Cursor.behind (text.take i ++ e.newText.toList)) s.buffer.cursor := by
  rw [applyEdit, hstart, hstop]
  exact Buffer.replace_between hs _

section
variable {encoding : Encoding} {lines : List Line}

theorem mergeSort_filter_offset (hl : Unbroken lines) {edits : List TextEdit}
    (hi : ∀ e ∈ edits, e.range.start.Inside encoding lines) (i : Nat) :
    (edits.mergeSort startsBefore).filter (fun e => (e.placed encoding lines).start = i) =
      edits.filter (fun e => (e.placed encoding lines).start = i) := by
  apply filter_mergeSort_of_pairwise startsBefore_trans startsBefore_total
  rw [List.pairwise_iff_forall_sublist]
  intro a b hab
  obtain ⟨ha, hpa⟩ := List.mem_filter.mp (hab.subset (by simp : a ∈ [a, b]))
  obtain ⟨hb, hpb⟩ := List.mem_filter.mp (hab.subset (by simp : b ∈ [a, b]))
  simp only [decide_eq_true_eq] at hpa hpb
  exact (startsBefore_iff hl (hi a ha) (hi b hb)).mpr (by omega)

/-- Sorted edits follow each other without overlap. -/
theorem mergeSort_apart (hl : Unbroken lines) {edits : List TextEdit}
    (hi : ∀ e ∈ edits, e.range.start.Inside encoding lines)
    (hc : Replacement.Compatible (edits.map (TextEdit.placed encoding lines))) :
    (edits.mergeSort startsBefore).Pairwise fun a b =>
      (a.placed encoding lines).stop ≤ (b.placed encoding lines).start := by
  have hperm := List.mergeSort_perm edits startsBefore
  have hsorted := List.pairwise_mergeSort startsBefore_trans startsBefore_total edits
  have hapart : (edits.mergeSort startsBefore).Pairwise fun a b =>
      Replacement.Apart (a.placed encoding lines) (b.placed encoding lines) :=
    (hperm.pairwise_iff fun h => Or.symm h).mpr (List.pairwise_map.mp hc.apart)
  rw [List.pairwise_iff_forall_sublist]
  intro a b hab
  have ha : a ∈ edits := hperm.subset (hab.subset (by simp))
  have hb : b ∈ edits := hperm.subset (hab.subset (by simp))
  have hle := (startsBefore_iff hl (hi a ha) (hi b hb)).mp
    (List.pairwise_iff_forall_sublist.mp hsorted hab)
  have hstop : (b.placed encoding lines).start ≤ (b.placed encoding lines).stop :=
    Nat.le_max_left _ _
  by_cases heq : (a.placed encoding lines).start = (b.placed encoding lines).start
  · -- Sorting is stable, so the two stand in this order in the list.
    have hp := mergeSort_filter_offset hl hi (b.placed encoding lines).start
    have hpair : [a, b].Sublist edits := by
      have hfilter := hab.filter fun e =>
        (e.placed encoding lines).start = (b.placed encoding lines).start
      rw [hp] at hfilter
      simp only [List.filter_cons, heq, decide_true, if_true, List.filter_nil] at hfilter
      exact hfilter.trans List.filter_sublist
    have hinsertion := List.pairwise_iff_forall_sublist.mp
      (List.pairwise_map.mp hc.insertionsFirst) hpair heq
    simp only [Replacement.IsInsertion] at hinsertion
    omega
  · have h := List.pairwise_iff_forall_sublist.mp hapart hab
    simp only [Replacement.Apart] at h
    omega

theorem substitute_mergeSort (hl : Unbroken lines)
    {edits : List TextEdit} (hi : ∀ e ∈ edits, e.range.start.Inside encoding lines)
    (text : List Char) :
    Replacement.substitute ((edits.mergeSort startsBefore).map (TextEdit.placed encoding lines))
      text = Replacement.substitute (edits.map (TextEdit.placed encoding lines)) text := by
  apply Replacement.substitute_congr
  intro i
  have hoffset := mergeSort_filter_offset hl hi i
  simpa [List.filter_map, Function.comp_def] using congrArg (List.map _) hoffset

/-- Applying edits from the last one on leaves the text before them as it is, so that the others find
their places in it. A cursor behind the text moves with it. -/
theorem foldr_applyEdit_left (hl : Unbroken lines) {before after : List Char}
    (ht : joinLines lines = before ++ after) {s : Session} {rest : List Char}
    (hs : s.buffer.lines = splitLines (before ++ rest))
    {edits : List TextEdit}
    (hi : ∀ e ∈ edits, e.range.start.Inside encoding lines ∧ e.range.stop.Inside encoding lines)
    (hp : edits.Pairwise fun a b =>
      (a.placed encoding lines).stop ≤ (b.placed encoding lines).start)
    (hleft : ∀ e ∈ edits, (e.placed encoding lines).stop ≤ before.length)
    {i : Nat} (hstart : ∀ e ∈ edits, i ≤ (e.placed encoding lines).start) :
    let t := edits.foldr (fun e s => applyEdit encoding s e) s
    let text := before.take i ++ Replacement.substituteFrom
      (edits.map (TextEdit.placed encoding lines)) i (before.drop i)
    t.buffer.lines = splitLines (text ++ rest) ∧
      ∀ w, s.buffer.cursor = Cursor.behind (before ++ w) →
        t.buffer.cursor = Cursor.behind (text ++ w) := by
  induction edits generalizing i with
  | nil => simp [hs, Replacement.substituteFrom_nil]
  | cons e edits ih =>
    intro t text
    obtain ⟨⟨hes, het⟩, hrest⟩ := List.forall_mem_cons.mp hi
    obtain ⟨he, hedits⟩ := List.pairwise_cons.mp hp
    obtain ⟨hle, hlefts⟩ := List.forall_mem_cons.mp hleft
    obtain ⟨hlines, hcursor⟩ := ih hrest hedits hlefts he
    have hfollow : ∀ r ∈ edits.map (TextEdit.placed encoding lines),
        (e.placed encoding lines).stop ≤ r.start := by
      simpa using he
    have hcons := Replacement.substituteFrom_cons (hstart e (by simp)) (Nat.le_max_left _ _) hle
      hfollow
    have hplace {p : Position} (hp : p.Inside encoding lines)
        (hm : offset encoding lines p ≤ (e.placed encoding lines).stop) :
        p.toCursor encoding
          ((edits.foldr (fun e s => applyEdit encoding s e) s).buffer.line p.line) =
            Cursor.behind (before.take (offset encoding lines p)) := by
      have hb := (hp.eq_behind hl).1
      rw [ht, List.take_append_of_le_length (hm.trans hle)] at hb
      have hsplit : before.take (e.placed encoding lines).stop =
          before.take (offset encoding lines p) ++ (before.drop (offset encoding lines p)).take
            ((e.placed encoding lines).stop - offset encoding lines p) := by
        rw [← List.take_add, Nat.add_sub_cancel' hm]
      conv => lhs; rw [hb]
      rw [hsplit] at hlines
      simp only [List.append_assoc] at hlines
      exact Buffer.toCursor_behind hlines encoding
    rw [List.append_assoc] at hlines
    obtain ⟨hlines', hcursor'⟩ := applyEdit_between hlines (hplace hes (Nat.le_max_left _ _))
      (hplace het (Nat.le_max_right _ _))
    have htext : text = before.take (e.placed encoding lines).start ++ e.newText.toList ++
        Replacement.substituteFrom (edits.map (TextEdit.placed encoding lines))
          (e.placed encoding lines).stop (before.drop (e.placed encoding lines).stop) := hcons
    refine ⟨?_, fun w hw => ?_⟩
    · rw [htext, List.append_assoc]
      exact hlines'
    · rw [htext, List.append_assoc]
      refine hcursor'.trans ?_
      rw [hcursor w hw, List.append_assoc]
      exact Buffer.moveCursor_behind ..

end

section
variable {s : Session} {server : ServerId} {edits : List TextEdit}

theorem applyEdits_lines (hn : s.buffer.lines ≠ []) (hl : Unbroken s.buffer.lines)
    (hi : ∀ e ∈ edits, e.range.start.Inside (s.encodingOf server) s.buffer.lines ∧
      e.range.stop.Inside (s.encodingOf server) s.buffer.lines)
    (hc : Replacement.Compatible
      (edits.map (TextEdit.placed (s.encodingOf server) s.buffer.lines))) :
    (s.applyEdits server edits).buffer.lines = splitLines (Replacement.substitute
      (edits.map (TextEdit.placed (s.encodingOf server) s.buffer.lines))
      (joinLines s.buffer.lines)) := by
  have hstart : ∀ e ∈ edits, e.range.start.Inside (s.encodingOf server) s.buffer.lines :=
    fun e he => (hi e he).1
  have hend : ∀ e ∈ edits, (e.placed (s.encodingOf server) s.buffer.lines).stop ≤
      (joinLines s.buffer.lines).length :=
    fun e he => Nat.max_le.mpr ⟨((hi e he).1.eq_behind hl).2, ((hi e he).2.eq_behind hl).2⟩
  have hsub := (List.mergeSort_perm edits startsBefore).subset
  have hs : s.buffer.lines = splitLines (joinLines s.buffer.lines ++ []) := by
    rw [List.append_nil, splitLines_joinLines hn hl]
  have hsorted := (foldr_applyEdit_left hl (List.append_nil _).symm hs (fun e he => hi e (hsub he))
    (mergeSort_apart hl hstart hc) (fun e he => hend e (hsub he)) fun e _ => Nat.zero_le _).1
  rw [applyEdits, List.foldl_reverse, hsorted, ← substitute_mergeSort hl hstart]
  simp [Replacement.substitute]

end

/-- Applying the edits of a server one after the other has the outcome of all replacements at once,
and only the order of edits with the same start matters. -/
theorem applyEdits_simultaneous (s : Session) (server : ServerId) (edits : List TextEdit)
    (hl : Unbroken s.buffer.lines)
    (hi : ∀ e ∈ edits, e.range.start.Inside (s.encodingOf server) s.buffer.lines ∧
      e.range.stop.Inside (s.encodingOf server) s.buffer.lines)
    (hc : Replacement.Compatible
      (edits.map (TextEdit.placed (s.encodingOf server) s.buffer.lines))) :
    joinLines (s.applyEdits server edits).buffer.lines =
        Replacement.substitute (edits.map (TextEdit.placed (s.encodingOf server) s.buffer.lines))
          (joinLines s.buffer.lines) ∧
      Unbroken (s.applyEdits server edits).buffer.lines ∧
      ∀ others, (∀ p, others.filter (·.range.start = p) = edits.filter (·.range.start = p)) →
        s.applyEdits server others = s.applyEdits server edits := by
  have hcongr (others : List TextEdit)
      (h : ∀ p, others.filter (·.range.start = p) = edits.filter (·.range.start = p)) :
      s.applyEdits server others = s.applyEdits server edits :=
    applyEdits_congr s server h
  cases edits with
  | nil =>
    have hnone : s.applyEdits server [] = s := by simp [applyEdits]
    rw [hnone]
    exact ⟨(Replacement.substituteFrom_nil 0 _).symm, hl, by simpa [hnone] using hcongr⟩
  | cons e edits =>
    have hn : s.buffer.lines ≠ [] := by
      intro hn
      obtain ⟨⟨u, v, hline, _⟩, _⟩ := hi e (by simp)
      simp [hn] at hline
    rw [applyEdits_lines hn hl hi hc]
    exact ⟨joinLines_splitLines _, splitLines_unbroken _, hcongr⟩

/-- Two lines, with a character that makes up two code units. -/
def twoLines : Session where
  config := {}
  uri := "file:///a"
  buffer := { lines := [['a', '𝒳', 'b'], ['c', 'd']], cursor := ⟨0, 0⟩ }
  signatureView := false
  snippets := []
  matcher := ⟨fun _ _ => true⟩
  globals := Table.empty
  ownCommands := none
  cancellable := true

/-- A range over two lines, an insertion, and a replacement at the place of the insertion. -/
def threeEdits : List TextEdit :=
  [⟨⟨⟨0, 3⟩, ⟨1, 1⟩⟩, "X"⟩, ⟨⟨⟨0, 1⟩, ⟨0, 1⟩⟩, "I\nJ"⟩, ⟨⟨⟨0, 1⟩, ⟨0, 3⟩⟩, "Y"⟩]

theorem applyEdits_simultaneous_threeEdits :
    joinLines (twoLines.applyEdits ⟨1⟩ threeEdits).buffer.lines = "aI\nJYXd".toList := by
  have hinside : ∀ e ∈ threeEdits,
      e.range.start.Inside (twoLines.encodingOf ⟨1⟩) twoLines.buffer.lines ∧
        e.range.stop.Inside (twoLines.encodingOf ⟨1⟩) twoLines.buffer.lines := by
    simp only [threeEdits, List.forall_mem_cons]
    refine ⟨⟨⟨['a', '𝒳'], ['b'], by decide⟩, ⟨['c'], ['d'], by decide⟩⟩,
      ⟨⟨['a'], ['𝒳', 'b'], by decide⟩, ⟨['a'], ['𝒳', 'b'], by decide⟩⟩,
      ⟨⟨['a'], ['𝒳', 'b'], by decide⟩, ⟨['a', '𝒳'], ['b'], by decide⟩⟩, by simp⟩
  have hcompatible : Replacement.Compatible (threeEdits.map
      (TextEdit.placed (twoLines.encodingOf ⟨1⟩) twoLines.buffer.lines)) :=
    ⟨by decide, by decide⟩
  have h := applyEdits_simultaneous twoLines ⟨1⟩ threeEdits (by decide) hinside hcompatible
  exact h.1.trans (by decide)

end Session
end Autocomplete

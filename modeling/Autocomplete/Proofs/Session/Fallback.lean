import Autocomplete.Proofs.Session.Displacement
import Autocomplete.Proofs.Session.Removal
import Autocomplete.Proofs.Session.Reset

/-! An accepted item with a snippet is put in by its literal text if the snippet cannot be expanded after
all. Its further edits have then been applied to a text without the word and the rest of its line. Edits
before the word, and those behind the line, find their places in it as they would in the whole text; one
on the rest of the line does not. -/
namespace Autocomplete
open Text

namespace Session

section
variable {s t : Session} {word : String} {e : Expansion} {before after : List Char}
  {server : ServerId} {edits : List TextEdit}

/-- Edits of a text from which a word and the rest of its line were taken out, and are then put back. If
at most one of them begins there, it is displaced, and the others are not. -/
theorem applyEdits_opened (ho : Opens s word t e before after)
    (hl : Autocomplete.Unbroken s.buffer.lines)
    (hs : t.encodingOf server = s.encodingOf server)
    (hi : ∀ e ∈ edits, e.range.start.Inside (s.encodingOf server) s.buffer.lines ∧
      e.range.stop.Inside (s.encodingOf server) s.buffer.lines)
    (hc : Replacement.Compatible
      (edits.map (TextEdit.placed (s.encodingOf server) s.buffer.lines)))
    (hapart : ∀ d ∈ edits, (d.placed (s.encodingOf server) s.buffer.lines).stop ≤ before.length ∨
      before.length ≤ (d.placed (s.encodingOf server) s.buffer.lines).start)
    (honce : edits.Pairwise fun a b =>
      ¬((a.placed (s.encodingOf server) s.buffer.lines).BeginsIn before.length
          (before.length + e.literal.length) ∧
        (b.placed (s.encodingOf server) s.buffer.lines).BeginsIn before.length
          (before.length + e.literal.length))) :
    ((t.applyEdits server edits).restoreLiteral e).buffer.lines = splitLines
      (Replacement.substitute ((edits.mergeSort startsBefore).map fun d =>
          (d.placed (s.encodingOf server) s.buffer.lines).displaced before.length
            (before.length + e.literal.length))
        (joinLines s.buffer.lines)) := by
  have hperm := List.mergeSort_perm edits startsBefore
  have hsub := hperm.subset
  have hsorted := mergeSort_apart hl (fun e he => (hi e he).1) hc
  have hsortedonce := (hperm.pairwise_iff fun h => mt And.symm h).mpr honce
  obtain ⟨left, right, hsplit, hleft, hright⟩ :=
    exists_split_edits hsorted fun d hd => hapart d (hsub hd)
  rw [applyEdits, List.foldl_reverse, hs, hsplit, List.foldr_append, List.map_append]
  rw [hsplit] at hsub hsorted hsortedonce
  obtain ⟨hpl, hpr, -⟩ := List.pairwise_append.mp hsorted
  obtain ⟨moved, rest, hlines, hcursor, hmoved⟩ := foldr_applyEdit_from hl ho.text rfl ho.unbroken
    ho.ends ho.lines ho.cursor (fun d hd => hi d (hsub (List.mem_append_right _ hd))) hpr hright
    (List.pairwise_append.mp hsortedonce).2.1
  rw [List.append_assoc] at hlines
  obtain ⟨hlines', hcursor'⟩ := foldr_applyEdit_left hl (ho.text.trans (List.append_assoc ..)) hlines
    (fun d hd => hi d (hsub (List.mem_append_left _ hd))) hpl hleft fun d _ => Nat.zero_le _
  rw [← List.append_assoc] at hlines'
  have hback := restoreLiteral_lines e hlines' (hcursor' moved hcursor)
  have hkept : left.map (fun d => (d.placed (s.encodingOf server) s.buffer.lines).displaced
      before.length (before.length + e.literal.length)) =
        left.map (TextEdit.placed (s.encodingOf server) s.buffer.lines) :=
    List.map_congr_left fun d hd => Replacement.displaced_before (hleft d hd)
  have hended : ∀ r ∈ left.map (TextEdit.placed (s.encodingOf server) s.buffer.lines),
      r.start ≤ r.stop ∧ r.stop ≤ 0 + before.length := by
    intro r hr
    obtain ⟨d, hd, rfl⟩ := List.mem_map.mp hr
    exact ⟨Nat.le_max_left _ _, by simpa using hleft d hd⟩
  have hbehind : ∀ r ∈ right.map fun d => (d.placed (s.encodingOf server)
      s.buffer.lines).displaced before.length (before.length + e.literal.length),
        0 + before.length ≤ r.start := by
    intro r hr
    obtain ⟨d, hd, rfl⟩ := List.mem_map.mp hr
    rw [Nat.zero_add]
    exact Replacement.le_displaced (Nat.le_add_right _ _) (hright d hd).1
  rw [hback, hkept, ho.text, List.append_assoc before, Replacement.substitute,
    Replacement.substituteFrom_append_append hended hbehind, Nat.zero_add, ← hmoved]
  simp

end

section
variable (s : Session) (payload : Payload)

theorem concludeAccept_buffer (resolved : Option Command) (expanded : Bool) :
    (s.concludeAccept payload resolved expanded).buffer = s.buffer := by
  unfold concludeAccept
  extract_lets t u
  split
  · exact executeCommand_buffer ..
  · rfl

theorem finishAccept_restoreLiteral (h : s.buffer.inserting = false) (resolved : Option Command)
    (e : Expansion) :
    (s.finishAccept payload resolved (some e)).buffer = (s.restoreLiteral e).buffer := by
  rw [finishAccept, concludeAccept_buffer, expand_fallback (expand_snd_eq_false.mpr (.inl h))]

theorem applyEdits_inserting (server : ServerId) (edits : List TextEdit) :
    (s.applyEdits server edits).buffer.inserting = s.buffer.inserting := by
  have each (encoding : Encoding) (es : List TextEdit) (t : Session) :
      (es.foldl (applyEdit encoding) t).buffer.inserting = t.buffer.inserting := by
    induction es generalizing t with
    | nil => rfl
    | cons e es ih => exact ih (applyEdit encoding t e)
  exact each _ _ s

/-- An accepted item is dealt with in a session that has the same text, servers and engines. -/
theorem ready_frame :
    let r := (s.reset .accepted).supersedeResolve
    r.buffer = s.buffer ∧ r.bindings = s.bindings ∧ r.snippets = s.snippets := by
  intro r
  dsimp only [r]
  rw [supersedeResolve_frame, reset_frame]
  exact ⟨rfl, rfl, rfl⟩

end

theorem prepareExpansion_none {s : Session} {expand : Bool}
    (h : expand = false ∨ s.availableEngine? = none) (m : Match) :
    ∃ t, s.prepareExpansion expand m = (t, none) ∧ t.buffer = s.buffer ∧ t.bindings = s.bindings := by
  unfold prepareExpansion
  rcases h with rfl | h
  · exact ⟨s, by cases m.item.replacementText <;> rfl, rfl, rfl⟩
  · split
    · exact ⟨s, rfl, rfl, rfl⟩
    · rw [h]
      exact ⟨_, rfl, by rw [report_frame], by rw [report_frame]⟩

theorem prepareExpansion_template {s : Session} {m : Match} {template : String}
    (hsnippet : m.item.isSnippet = true) (ht : m.item.replacementText = some template)
    (hengine : s.availableEngine?.isSome = true) : s.prepareExpansion true m =
      ((s.removeInsertedWord m.word template).1, some (s.removeInsertedWord m.word template).2) := by
  simp [prepareExpansion, Option.filter, ht, hsnippet, hengine]

section
variable {s : Session} {m : Match} {edits : List TextEdit}
  (hedits : m.item.additionalTextEdits = some edits) (hne : edits ≠ [])
include hedits hne

theorem supplyEdits_eq (expansion : Option Expansion) :
    s.supplyEdits m expansion =
      (s.applyEdits m.server edits).finishAccept m.payload none expansion := by
  obtain ⟨e, es, rfl⟩ := List.exists_cons_of_ne_nil hne
  simp [supplyEdits, hedits]

variable (hl : Autocomplete.Unbroken s.buffer.lines)
  (hline : s.buffer.cursor.line < s.buffer.lines.length)
  (hi : ∀ e ∈ edits, e.range.start.Inside (s.encodingOf m.server) s.buffer.lines ∧
    e.range.stop.Inside (s.encodingOf m.server) s.buffer.lines)
  (hc : Replacement.Compatible
    (edits.map (TextEdit.placed (s.encodingOf m.server) s.buffer.lines)))
include hl hline hi hc

/-- Without an expansion, all edits are made in the text as it is. -/
theorem acceptMatch_plain (hnone : s.expandSnippet = false ∨ s.availableEngine? = none) :
    joinLines (s.acceptMatch m).buffer.lines = Replacement.substitute
      (edits.map (TextEdit.placed (s.encodingOf m.server) s.buffer.lines))
      (joinLines s.buffer.lines) := by
  obtain ⟨hbuffer, hbindings, hsnippets⟩ := s.ready_frame
  let r := (s.reset .accepted).supersedeResolve
  have hready : s.expandSnippet = false ∨ r.availableEngine? = none := by
    rwa [availableEngine?, hsnippets]
  obtain ⟨t, hprepare, hb, ht⟩ := prepareExpansion_none hready m
  rw [hbuffer] at hb
  rw [hbindings] at ht
  have hencoding : t.encodingOf m.server = s.encodingOf m.server := by rw [encodingOf, ht, encodingOf]
  have haccept : (s.acceptMatch m).buffer = (t.applyEdits m.server edits).buffer := by
    rw [acceptMatch, hprepare]
    dsimp only
    rw [supplyEdits_eq hedits hne, finishAccept, concludeAccept_buffer]
  rw [← hb, ← hencoding] at hi hc ⊢
  rw [← hb] at hl hline
  rw [haccept, applyEdits_lines (List.ne_nil_of_length_pos (Nat.zero_lt_of_lt hline)) hl hi hc,
    joinLines_splitLines]

/-- With an expansion that cannot be made, an edit that begins on the rest of the line is displaced. -/
theorem acceptMatch_fallback (hexpand : s.expandSnippet = true) (hmode : s.buffer.inserting = false)
    (hcolumn : s.buffer.cursor.column ≤ byteLength s.buffer.currentLine)
    (hsnippet : m.item.isSnippet = true) {template : String}
    (htemplate : m.item.replacementText = some template)
    (hengine : s.availableEngine?.isSome = true)
    (hapart : ∀ e ∈ edits, (e.placed (s.encodingOf m.server) s.buffer.lines).stop ≤
        s.buffer.charactersBefore (s.wordStart m.word) ∨
      s.buffer.charactersBefore (s.wordStart m.word) ≤
        (e.placed (s.encodingOf m.server) s.buffer.lines).start)
    (honce : edits.Pairwise fun a b =>
      ¬((a.placed (s.encodingOf m.server) s.buffer.lines).BeginsIn
          (s.buffer.charactersBefore (s.wordStart m.word)) (s.buffer.charactersBefore s.lineStop) ∧
        (b.placed (s.encodingOf m.server) s.buffer.lines).BeginsIn
          (s.buffer.charactersBefore (s.wordStart m.word)) (s.buffer.charactersBefore s.lineStop))) :
    joinLines (s.acceptMatch m).buffer.lines = Replacement.substitute
      ((edits.mergeSort startsBefore).map fun e =>
        (e.placed (s.encodingOf m.server) s.buffer.lines).displaced
          (s.buffer.charactersBefore (s.wordStart m.word)) (s.buffer.charactersBefore s.lineStop))
      (joinLines s.buffer.lines) := by
  obtain ⟨hb, hbindings, hsnippets⟩ := s.ready_frame
  let r := (s.reset .accepted).supersedeResolve
  have hencoding : r.encodingOf m.server = s.encodingOf m.server := by
    rw [encodingOf, hbindings, encodingOf]
  have hstart : r.wordStart m.word = s.wordStart m.word := by rw [wordStart, hb, wordStart]
  have hstop : r.lineStop = s.lineStop := by rw [lineStop, hb, lineStop]
  have hready : r.availableEngine?.isSome = true := by rwa [availableEngine?, hsnippets]
  let t := (r.removeInsertedWord m.word template).1
  let e := (r.removeInsertedWord m.word template).2
  have haccept : (s.acceptMatch m).buffer = ((t.applyEdits m.server edits).restoreLiteral e).buffer := by
    have hinserting : (t.applyEdits m.server edits).buffer.inserting = false := by
      rw [applyEdits_inserting]
      exact (congrArg Buffer.inserting hb).trans hmode
    rw [acceptMatch, hexpand, prepareExpansion_template hsnippet htemplate hready]
    dsimp only
    rw [supplyEdits_eq hedits hne, finishAccept_restoreLiteral _ _ hinserting]
  rw [← hb, ← hencoding] at hi hc hapart honce ⊢
  rw [← hb] at hl hline hcolumn
  rw [← hstart] at hapart honce ⊢
  rw [← hstop] at honce ⊢
  obtain ⟨before, after, ho, -⟩ := removeInsertedWord_opens hl hline hcolumn m.word template
  rw [ho.start] at hapart honce ⊢
  rw [ho.lineEnd] at honce ⊢
  rw [haccept, applyEdits_opened ho hl rfl hi hc hapart honce, joinLines_splitLines]

end

/-- If an accepted snippet cannot be expanded after all, the further edits of its item do the same as
without an expansion if each is before the word or begins behind its line, where one that puts something
in at the end of the line counts as one on the line. If a single one begins on the rest of the line, it is
displaced: its text comes before the word, and what it was to replace of the line stays. -/
theorem literalFallback_displaces (s : Session) (m : Match) (edits : List TextEdit)
    (template : String) (hdone : s.suppressDone = false) (hexpand : s.expandSnippet = true)
    (hmode : s.buffer.inserting = false) (hl : Autocomplete.Unbroken s.buffer.lines)
    (hline : s.buffer.cursor.line < s.buffer.lines.length)
    (hcolumn : s.buffer.cursor.column ≤ byteLength s.buffer.currentLine)
    (hsnippet : m.item.isSnippet = true) (htemplate : m.item.replacementText = some template)
    (hedits : m.item.additionalTextEdits = some edits) (hne : edits ≠ [])
    (hi : ∀ e ∈ edits, e.range.start.Inside (s.encodingOf m.server) s.buffer.lines ∧
      e.range.stop.Inside (s.encodingOf m.server) s.buffer.lines)
    (hc : Replacement.Compatible
      (edits.map (TextEdit.placed (s.encodingOf m.server) s.buffer.lines)))
    (hapart : ∀ e ∈ edits, (e.placed (s.encodingOf m.server) s.buffer.lines).stop ≤
        s.buffer.charactersBefore (s.wordStart m.word) ∨
      s.buffer.charactersBefore s.wordStop ≤
        (e.placed (s.encodingOf m.server) s.buffer.lines).start) :
    let placed := TextEdit.placed (s.encodingOf m.server) s.buffer.lines
    let text := joinLines s.buffer.lines
    let place := s.buffer.charactersBefore (s.wordStart m.word)
    let lineEnd := s.buffer.charactersBefore s.lineStop
    let plain := { s with expandSnippet := false }.completeDone (some m)
    let fallen := s.completeDone (some m)
    joinLines plain.buffer.lines = Replacement.substitute (edits.map placed) text ∧
      ((∀ e ∈ edits, (placed e).stop ≤ place ∨
          lineEnd ≤ (placed e).start ∧ lineEnd < (placed e).stop) →
        joinLines fallen.buffer.lines = joinLines plain.buffer.lines) ∧
      (s.availableEngine?.isSome = true →
        (edits.Pairwise fun a b =>
          ¬((placed a).BeginsIn place lineEnd ∧ (placed b).BeginsIn place lineEnd)) →
        joinLines fallen.buffer.lines = Replacement.substitute
          ((edits.mergeSort startsBefore).map fun e => (placed e).displaced place lineEnd) text) := by
  intro placed text place lineEnd plain fallen
  have hplain : joinLines plain.buffer.lines = Replacement.substitute (edits.map placed) text := by
    have haccept : plain = { s with expandSnippet := false }.acceptMatch m := by
      simp only [plain, completeDone, hdone, Bool.false_eq_true, if_false]
    rw [haccept]
    exact acceptMatch_plain (s := { s with expandSnippet := false }) hedits hne hl hline hi hc
      (.inl rfl)
  have haccept : fallen = s.acceptMatch m := by
    simp only [fallen, completeDone, hdone, Bool.false_eq_true, if_false]
  obtain ⟨before, after, ho, -⟩ := removeInsertedWord_opens hl hline hcolumn m.word template
  have hword : place ≤ s.buffer.charactersBefore s.wordStop := by
    simp only [place, ho.start, ho.wordEnd, Nat.le_add_right]
  have hliteral : place ≤ lineEnd := by
    simp only [place, lineEnd, ho.start, ho.lineEnd, Nat.le_add_right]
  have hfallen (hengine : s.availableEngine?.isSome = true)
      (honce : edits.Pairwise fun a b =>
        ¬((placed a).BeginsIn place lineEnd ∧ (placed b).BeginsIn place lineEnd)) :
      joinLines fallen.buffer.lines = Replacement.substitute
        ((edits.mergeSort startsBefore).map fun e => (placed e).displaced place lineEnd) text := by
    rw [haccept]
    exact acceptMatch_fallback hedits hne hl hline hi hc hexpand hmode hcolumn hsnippet htemplate
      hengine (fun e he => (hapart e he).imp_right hword.trans) honce
  refine ⟨hplain, fun hbeyond => ?_, hfallen⟩
  rw [hplain]
  cases hengine : s.availableEngine? with
  | none =>
    rw [haccept]
    exact acceptMatch_plain hedits hne hl hline hi hc (.inr hengine)
  | some engine =>
    have honce : edits.Pairwise fun a b =>
        ¬((placed a).BeginsIn place lineEnd ∧ (placed b).BeginsIn place lineEnd) := by
      refine (List.pairwise_map.mp hc.apart).imp_of_mem fun {a b} ha hb hab => ?_
      have ha' := hbeyond _ ha
      have hb' := hbeyond _ hb
      change (placed a).stop ≤ (placed b).start ∨ (placed b).stop ≤ (placed a).start at hab
      simp only [Replacement.BeginsIn]
      omega
    rw [hfallen (Option.isSome_of_eq_some hengine) honce, ← substitute_mergeSort hl fun e he => (hi e he).1]
    congr 1
    refine List.map_congr_left fun e he => ?_
    rcases hbeyond e ((List.mergeSort_perm edits startsBefore).subset he) with h | ⟨h, hstop⟩
    · exact Replacement.displaced_before h
    · rw [Replacement.displaced_beyond hliteral hstop, Replacement.clip_of_le h]

/-- A word before a bracket that was accepted while no text is typed, with another line below. -/
def acceptedBeforeBracket : Session where
  config := {}
  uri := "file:///a"
  buffer := { lines := ["foo)".toList, ['x']], cursor := ⟨0, 3⟩, inserting := false }
  signatureView := false
  snippets := [⟨"ultisnips", true⟩]
  matcher := ⟨fun _ _ => true⟩
  globals := Table.empty
  ownCommands := none
  cancellable := true
  expandSnippet := true

/-- A call that brings further edits along. -/
def callWith (edits : List TextEdit) : Match :=
  .ofPayload ⟨⟨1⟩, {
    label := "foo"
    insertText := some "foo($1)"
    insertTextFormat := some Item.snippetFormat
    additionalTextEdits := some edits }⟩ false 0

/-- At the end of the line, a text is put in before the word; without an expansion it is put in where it
belongs. An edit at the word and one on the next line are made alike. -/
theorem literalFallback_displaces_acceptedBeforeBracket :
    let s := acceptedBeforeBracket
    let atEnd := callWith [⟨⟨⟨0, 4⟩, ⟨0, 4⟩⟩, " X"⟩]
    let apart := callWith [⟨⟨⟨1, 0⟩, ⟨1, 1⟩⟩, "Y"⟩, ⟨⟨⟨0, 0⟩, ⟨0, 0⟩⟩, "I;"⟩]
    joinLines (s.completeDone (some atEnd)).buffer.lines = " Xfoo)\nx".toList ∧
      joinLines ({ s with expandSnippet := false }.completeDone (some atEnd)).buffer.lines =
        "foo) X\nx".toList ∧
      joinLines (s.completeDone (some apart)).buffer.lines = "I;foo)\nY".toList := by
  intro s atEnd apart
  have hunbroken : Autocomplete.Unbroken s.buffer.lines := by decide
  have hplaced (i : Nat) (u v : Line) (h : s.buffer.lines[i]? = some (u ++ v)) :
      Position.Inside .utf16 s.buffer.lines ⟨i, Encoding.utf16.length u⟩ := ⟨u, v, h, rfl⟩
  obtain ⟨hplain, -, hfallen⟩ := literalFallback_displaces s atEnd [⟨⟨⟨0, 4⟩, ⟨0, 4⟩⟩, " X"⟩]
    "foo($1)" rfl rfl rfl hunbroken (by decide) (by decide) rfl rfl rfl (by simp)
    (List.forall_mem_singleton.mpr
      ⟨hplaced 0 "foo)".toList [] (by decide), hplaced 0 "foo)".toList [] (by decide)⟩)
    ⟨by decide, by decide⟩ (by decide +kernel)
  obtain ⟨hapart, hagree, -⟩ := literalFallback_displaces s apart
    [⟨⟨⟨1, 0⟩, ⟨1, 1⟩⟩, "Y"⟩, ⟨⟨⟨0, 0⟩, ⟨0, 0⟩⟩, "I;"⟩]
    "foo($1)" rfl rfl rfl hunbroken (by decide) (by decide) rfl rfl rfl (by simp)
    (List.forall_mem_cons.mpr ⟨⟨hplaced 1 [] ['x'] (by decide), hplaced 1 ['x'] [] (by decide)⟩,
      List.forall_mem_singleton.mpr
        ⟨hplaced 0 [] "foo)".toList (by decide), hplaced 0 [] "foo)".toList (by decide)⟩⟩)
    ⟨by decide, by decide⟩ (by decide +kernel)
  refine ⟨(hfallen rfl (by decide +kernel)).trans ?_, hplain.trans (by decide +kernel),
    (hagree (by decide +kernel)).trans (hapart.trans (by decide +kernel))⟩
  rw [List.mergeSort_singleton]
  decide +kernel

end Session
end Autocomplete

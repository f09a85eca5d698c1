import Autocomplete.Proofs.Session.Edits
import Autocomplete.Proofs.Session.Place

/-! To make room for a snippet, the accepted word is taken out of the text together with the rest of its
line. Whatever characters the line is made of, nothing else is taken, and where the snippet cannot be
expanded, the text is put back as it was. -/
namespace Autocomplete
open Text

/-- How many characters of the document are before a place. -/
def Buffer.charactersBefore (b : Buffer) (c : Cursor) : Nat :=
  offset .utf8 b.lines ⟨c.line, c.column⟩

theorem offset_append (encoding : Encoding) (init rest : List Line) (u v : Line) :
    offset encoding (init ++ (u ++ v) :: rest) ⟨init.length, encoding.length u⟩ =
      (joinLines (init ++ [u])).length := by
  induction init with
  | nil => simp [offset, Encoding.charactersCovering_append, joinLines]
  | cons line init ih =>
    rw [List.cons_append, List.length_cons, offset, ih, List.cons_append,
      joinLines_cons line (by simp)]
    simp [Nat.add_assoc, Nat.add_comm 1]

theorem Buffer.charactersBefore_append {b : Buffer} {init rest : List Line} {u v w : Line}
    (hb : b.lines = init ++ (u ++ v ++ w) :: rest) :
    b.charactersBefore ⟨init.length, byteLength (u ++ v)⟩ =
      (joinLines (init ++ [u])).length + v.length := by
  have hj : joinLines (init ++ [u ++ v]) = joinLines (init ++ [u]) ++ v := by
    simpa [joinLines] using joinLines_append init [] u v
  rw [charactersBefore, hb, ← Encoding.length_utf8, offset_append, hj, List.length_append]

namespace Session
open Cursor

section
variable (s : Session) (word template : String)

/-- The place up to which the inserted word reaches. -/
def wordStop : Cursor :=
  ⟨s.buffer.cursor.line, floorColumn s.buffer.currentLine s.buffer.cursor.column⟩

/-- The end of the line of the cursor. -/
def lineStop : Cursor := ⟨s.buffer.cursor.line, byteLength s.buffer.currentLine⟩

/-- What is left of the line from which a word is taken out. -/
def keptLine : Line := takeBytes s.buffer.currentLine (s.wordStart word).column

theorem wordStart_eq : s.wordStart word = ⟨s.buffer.cursor.line, byteLength (s.keptLine word)⟩ :=
  congrArg (Cursor.mk _) (isBoundary_floorColumn s.buffer.currentLine _).symm

theorem keptLine_append_word : s.keptLine word ++ (s.removeInsertedWord word template).2.word =
    takeBytes s.buffer.currentLine s.wordStop.column := by
  have hle : (s.wordStart word).column ≤ s.wordStop.column :=
    (floorColumn_le s.buffer.currentLine _).trans (Nat.sub_le _ _)
  rw [keptLine, ← takeBytes_takeBytes s.buffer.currentLine hle]
  exact takeBytes_append_dropBytes (takeBytes s.buffer.currentLine s.wordStop.column) _

theorem wordStop_eq : s.wordStop = ⟨s.buffer.cursor.line,
    byteLength (s.keptLine word ++ (s.removeInsertedWord word template).2.word)⟩ := by
  rw [keptLine_append_word]
  exact congrArg (Cursor.mk _) (isBoundary_floorColumn s.buffer.currentLine _).symm

theorem keptLine_append : s.keptLine word ++ (s.removeInsertedWord word template).2.word ++
    (s.removeInsertedWord word template).2.suffix = s.buffer.currentLine := by
  rw [keptLine_append_word]
  exact takeBytes_append_dropBytes s.buffer.currentLine s.wordStop.column

theorem keptLine_append_literal :
    s.keptLine word ++ (s.removeInsertedWord word template).2.literal = s.buffer.currentLine := by
  rw [Expansion.literal, ← List.append_assoc, keptLine_append]

/-- The line is cut between characters, into what is kept, the word, and the rest. -/
theorem slices : slice? s.buffer.currentLine 0 (s.wordStart word).column = some (s.keptLine word) ∧
    slice? s.buffer.currentLine (s.wordStart word).column s.wordStop.column =
      some (s.removeInsertedWord word template).2.word ∧
    slice? s.buffer.currentLine s.wordStop.column (byteLength s.buffer.currentLine) =
      some (s.removeInsertedWord word template).2.suffix := by
  let e := (s.removeInsertedWord word template).2
  have hparts : s.keptLine word ++ e.word ++ e.suffix = s.buffer.currentLine :=
    s.keptLine_append word template
  rw [s.wordStart_eq, s.wordStop_eq word template, ← hparts]
  refine ⟨?_, slice?_append _ _ _, slice?_append_right _ _⟩
  rw [List.append_assoc]
  exact slice?_append_left _ _

variable {s word}

/-- Right behind a word, the word is found again. -/
theorem wordStart_column_of_behind {pre suffix : Line}
    (hline : s.buffer.currentLine = pre ++ word.toList ++ suffix)
    (hcursor : s.buffer.cursor.column = byteLength (pre ++ word.toList)) :
    (s.wordStart word).column = byteLength pre ∧
      s.wordStop.column = byteLength (pre ++ word.toList) := by
  have hstop : floorColumn s.buffer.currentLine s.buffer.cursor.column =
      byteLength (pre ++ word.toList) := by
    rw [hline, hcursor, floorColumn_append]
  have hstart : floorColumn s.buffer.currentLine (byteLength pre) = byteLength pre := by
    rw [hline, List.append_assoc, floorColumn_append]
  refine ⟨?_, hstop⟩
  rw [wordStart, hstop, byteLength_append, Nat.add_sub_cancel, hstart]

end

/-- The document around a word that is taken out with the rest of its line: in `s` both are still there,
in `t` they are not. -/
structure Opens (s : Session) (word : String) (t : Session) (e : Expansion)
    (before after : List Char) : Prop where
  text : joinLines s.buffer.lines = before ++ e.literal ++ after
  unbroken : '\n' ∉ e.literal
  ends : EndsLine after
  start : s.buffer.charactersBefore (s.wordStart word) = before.length
  wordEnd : s.buffer.charactersBefore s.wordStop = before.length + e.word.length
  lineEnd : s.buffer.charactersBefore s.lineStop = before.length + e.literal.length
  lines : t.buffer.lines = splitLines (before ++ after)
  cursor : t.buffer.cursor = behind before

theorem exists_lines_eq (s : Session) (hline : s.buffer.cursor.line < s.buffer.lines.length) :
    ∃ init rest, s.buffer.lines = init ++ s.buffer.currentLine :: rest ∧
      init.length = s.buffer.cursor.line := by
  refine ⟨s.buffer.lines.take s.buffer.cursor.line, s.buffer.lines.drop (s.buffer.cursor.line + 1),
    ?_, by simp; omega⟩
  rw [Buffer.currentLine, Buffer.line, Buffer.line?, List.getElem?_eq_getElem hline,
    Option.getD_some, ← List.drop_eq_getElem_cons, List.take_append_drop]

section
variable {s : Session} (hl : Autocomplete.Unbroken s.buffer.lines)
  (hline : s.buffer.cursor.line < s.buffer.lines.length)
  (hcolumn : s.buffer.cursor.column ≤ byteLength s.buffer.currentLine) (word template : String)
include hl hline hcolumn

theorem removeInsertedWord_opens : ∃ before after,
    Opens s word (s.removeInsertedWord word template).1 (s.removeInsertedWord word template).2
        before after ∧
      splitLines (before ++ after) =
        s.buffer.lines.set s.buffer.cursor.line (s.keptLine word) := by
  let e := (s.removeInsertedWord word template).2
  let kept := s.keptLine word
  have hliteral : kept ++ e.literal = s.buffer.currentLine :=
    s.keptLine_append_literal word template
  have hparts : kept ++ e.word ++ e.suffix = s.buffer.currentLine := s.keptLine_append word template
  obtain ⟨init, rest, hlines, hn⟩ := s.exists_lines_eq hline
  have hsplit : s.buffer.lines = init ++ (kept ++ e.literal) :: rest := by rw [hliteral, hlines]
  obtain ⟨hinit, hcurrent, hrest⟩ := unbroken_append_cons.mp (hsplit ▸ hl)
  have hkept : '\n' ∉ kept := fun hm => hcurrent (List.mem_append_left _ hm)
  have hunbroken : '\n' ∉ e.literal := fun hm => hcurrent (List.mem_append_right kept hm)
  let before := joinLines (init ++ [kept])
  let after := joinLines ([] :: rest)
  have hbefore : splitLines before = init ++ [kept] :=
    splitLines_joinLines (by simp) (unbroken_append_cons.mpr ⟨hinit, hkept, List.forall_mem_nil _⟩)
  have hdoc : s.buffer.lines = splitLines (before ++ e.literal ++ after) :=
    hsplit.trans (splitLines_joinLines_append (hsplit ▸ hl)).symm
  have hstart : behind before = s.wordStart word := by
    rw [behind_eq hbefore, s.wordStart_eq, hn]
  have hend : behind (before ++ e.literal) = s.lineStop := by
    rw [behind_eq (splitLines_append hbefore (splitLines_of_notMem hunbroken)), hn, hliteral,
      lineStop]
  have hopened : (s.removeInsertedWord word template).1.buffer.lines =
      splitLines (before ++ after) := by
    have h := Buffer.replace_behind hdoc []
    rw [List.append_nil, hstart, hend] at h
    exact h
  refine ⟨before, after, ⟨?_, hunbroken, endsLine_joinLines rest, ?_, ?_, ?_, hopened, ?_⟩, ?_⟩
  · rw [hsplit, joinLines_append]
  · have h : s.buffer.lines = init ++ (kept ++ [] ++ e.literal) :: rest := by simpa using hsplit
    have hplace := Buffer.charactersBefore_append h
    rwa [List.append_nil, hn, ← s.wordStart_eq] at hplace
  · have h : s.buffer.lines = init ++ (kept ++ e.word ++ e.suffix) :: rest := by
      rw [hparts, hlines]
    have hplace := Buffer.charactersBefore_append h
    rwa [hn, ← s.wordStop_eq word template] at hplace
  · have h : s.buffer.lines = init ++ (kept ++ e.literal ++ []) :: rest := by simpa using hsplit
    have hplace := Buffer.charactersBefore_append h
    rwa [hliteral, hn] at hplace
  · rw [hstart, s.removeInsertedWord_cursor word template hline, Nat.sub_eq_zero_of_le hcolumn]
    rfl
  · have hcut : Autocomplete.Unbroken (init ++ (kept ++ []) :: rest) :=
      unbroken_append_cons.mpr ⟨hinit, by rwa [List.append_nil], hrest⟩
    have h := splitLines_joinLines_append hcut
    rw [List.append_nil, List.append_nil] at h
    rw [h, hlines, ← hn]
    simp [kept]

end

/-- Text is put back at the cursor, whatever was changed before and behind it. -/
theorem restoreLiteral_lines {s : Session} (e : Expansion) {before after : List Char}
    (hs : s.buffer.lines = splitLines (before ++ after)) (hc : s.buffer.cursor = behind before) :
    (s.restoreLiteral e).buffer.lines = splitLines (before ++ e.literal ++ after) :=
  Buffer.insert_lines hs hc e.literal

section
variable {s : Session} {e : Expansion}

theorem expand_snd_eq_false :
    (s.expand e).2 = false ↔ s.buffer.inserting = false ∨ s.availableEngine? = none := by
  unfold expand
  cases s.buffer.inserting with
  | false => simp
  | true => cases s.availableEngine? <;> simp

theorem expand_fallback (h : (s.expand e).2 = false) :
    (s.expand e).1.buffer = (s.restoreLiteral e).buffer := by
  have hreport (message : String) :
      ((s.report .warning message).restoreLiteral e).buffer = (s.restoreLiteral e).buffer := by
    rw [report_frame]
    rfl
  unfold expand at h ⊢
  cases hi : s.buffer.inserting with
  | false => simp
  | true =>
    cases ha : s.availableEngine? with
    | some engine => simp [hi, ha] at h
    | none => simpa using hreport _

theorem expand_trace (hi : s.buffer.inserting = true) {engine : SnippetEngine}
    (ha : s.availableEngine? = some engine) : (s.expand e).2 = true ∧
      ∃ records : List LogRecord, (s.expand e).1.trace =
        s.trace ++ .call (.expand engine.name e.snippet) :: records.map .log := by
  rw [expand, if_pos hi, ha]
  refine ⟨rfl, [⟨.debug, "quill_completion::accept", "Expanded snippet",
    [("engine", .str engine.name)]⟩], ?_⟩
  simp [call, log]

end

/-- Taking out an accepted word cuts its line between characters, into what is kept, the word and the
rest, and putting it back restores the document. Right behind the word, the line is cut at its ends, and
an engine gets the template with the rest of the line. -/
theorem removeInsertedWord_undone (s : Session) (word template : String)
    (hl : Autocomplete.Unbroken s.buffer.lines)
    (hline : s.buffer.cursor.line < s.buffer.lines.length)
    (hcolumn : s.buffer.cursor.column ≤ byteLength s.buffer.currentLine) :
    let line := s.buffer.currentLine
    let t := (s.removeInsertedWord word template).1
    let e := (s.removeInsertedWord word template).2
    (∃ kept, slice? line 0 (s.wordStart word).column = some kept ∧
        t.buffer.lines = s.buffer.lines.set s.buffer.cursor.line kept) ∧
      slice? line (s.wordStart word).column s.wordStop.column = some e.word ∧
      slice? line s.wordStop.column (byteLength line) = some e.suffix ∧
      (∀ u : Session, u.buffer.lines = t.buffer.lines → u.buffer.cursor = t.buffer.cursor →
        u.buffer.inserting = false ∨ u.availableEngine? = none →
          (u.expand e).2 = false ∧ (u.expand e).1.buffer.lines = s.buffer.lines) ∧
      ∀ pre suffix, line = pre ++ word.toList ++ suffix →
        s.buffer.cursor.column = byteLength (pre ++ word.toList) →
          t.buffer.lines = s.buffer.lines.set s.buffer.cursor.line pre ∧
            e.word = word.toList ∧ e.suffix = suffix ∧
            ∀ (u : Session) (engine : SnippetEngine), u.buffer.inserting = true →
              u.availableEngine? = some engine →
              (u.expand e).2 = true ∧ ∃ records : List LogRecord, (u.expand e).1.trace = u.trace ++
                .call (.expand engine.name (template ++ String.ofList (Snippet.escape suffix))) ::
                  records.map .log := by
  intro line t e
  obtain ⟨before, after, ho, hset⟩ := removeInsertedWord_opens hl hline hcolumn word template
  obtain ⟨hkept, hword, hsuffix⟩ := s.slices word template
  refine ⟨⟨s.keptLine word, hkept, ho.lines.trans hset⟩, hword, hsuffix, ?_, ?_⟩
  · intro u hlines hcursor hfallback
    have hnot : (u.expand e).2 = false := expand_snd_eq_false.mpr hfallback
    have hback := restoreLiteral_lines e (hlines.trans ho.lines) (hcursor.trans ho.cursor)
    refine ⟨hnot, ?_⟩
    rw [expand_fallback hnot, hback, ← ho.text, splitLines_joinLines ?_ hl]
    exact List.ne_nil_of_length_pos (Nat.zero_lt_of_lt hline)
  · intro pre suffix (hparts : s.buffer.currentLine = _) hbehind
    obtain ⟨hstart, hstop⟩ := wordStart_column_of_behind hparts hbehind
    rw [hstart, hparts, List.append_assoc, slice?_append_left] at hkept
    rw [hstart, hstop, hparts, slice?_append] at hword
    rw [hstop, hparts, slice?_append_right] at hsuffix
    have hcut : e.suffix = suffix := (Option.some.inj hsuffix).symm
    refine ⟨?_, (Option.some.inj hword).symm, hcut, fun u engine hinserting hengine => ?_⟩
    · rw [Option.some.inj hkept]
      exact ho.lines.trans hset
    · rw [← hcut]
      exact expand_trace hinserting hengine

/-- A word with a long character before a bracket, on the second of three lines. -/
def beforeBracket : Session where
  config := {}
  uri := "file:///a"
  buffer := { lines := ["a".toList, "é.𝒳b)".toList, []], cursor := ⟨1, 8⟩ }
  signatureView := false
  snippets := [⟨"ultisnips", true⟩]
  matcher := ⟨fun _ _ => true⟩
  globals := Table.empty
  ownCommands := none
  cancellable := true

theorem removeInsertedWord_undone_beforeBracket :
    let s := beforeBracket
    let e := (s.removeInsertedWord "𝒳b" "x($1)").2
    let t := (s.removeInsertedWord "𝒳b" "x($1)").1
    t.buffer.lines = ["a".toList, "é.".toList, []] ∧ e.word = "𝒳b".toList ∧ e.suffix = [')'] ∧
      (t.expand e).2 = true ∧
      ({ t with snippets := [] }.expand e).1.buffer.lines = s.buffer.lines := by
  intro s e t
  have hunbroken : Autocomplete.Unbroken s.buffer.lines := by decide
  have hline : s.buffer.cursor.line < s.buffer.lines.length := by decide
  have hcolumn : s.buffer.cursor.column ≤ byteLength s.buffer.currentLine := by decide
  obtain ⟨-, -, -, hundone, hexact⟩ :=
    removeInsertedWord_undone s "𝒳b" "x($1)" hunbroken hline hcolumn
  obtain ⟨hlines, hword, hsuffix, hexpand⟩ :=
    hexact "é.".toList ")".toList (by decide) (by decide)
  exact ⟨hlines, hword, hsuffix, (hexpand t ⟨"ultisnips", true⟩ rfl rfl).1,
    (hundone { t with snippets := [] } rfl rfl (.inr rfl)).2⟩

end Session
end Autocomplete

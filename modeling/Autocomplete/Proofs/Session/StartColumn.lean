import Autocomplete.Proofs.Buffer
import Autocomplete.Proofs.Session.Replay
import Autocomplete.Proofs.Session.Shown
import Autocomplete.Proofs.StartColumn
import Mathlib.Data.List.Infix

/-! The column where shown results start, in the line as it is when the last answer is there. It is
between two characters of the line, and right of the cursor only if the servers agree on such a column.
What was typed right of their common start since they were asked makes no difference. -/
namespace Autocomplete
open Text MergeRequest

namespace Session
open Observation

/-- Where the answers of a round are put in. -/
def mergeRequest (s : Session) : MergeRequest where
  lineNumber := s.buffer.cursor.line
  line := s.buffer.currentLine
  cursorColumn := s.buffer.cursor.column
  naiveStart := naiveStart s.buffer.currentLine s.buffer.cursor.column

theorem mergeRound_startColumn (s : Session) (c : Round) : (s.mergeRound c).startColumn =
    s.mergeRequest.startColumn (answers c.replies s.bindings) := rfl

/-- Where results are shown. -/
def shownStart? : Observation → Option Nat
  | .call (.present column _) => some column
  | _ => none

theorem exists_present {trace : List Observation} {column : Nat}
    (h : some column ∈ trace.map shownStart?) :
    ∃ old entries rest, trace = old ++ .call (.present column entries) :: rest := by
  obtain ⟨o, hm, ho⟩ := List.mem_map.mp h
  obtain ⟨old, rest, ht⟩ := List.append_of_mem hm
  unfold shownStart? at ho
  split at ho
  next shown entries =>
    obtain rfl := Option.some.inj ho
    exact ⟨old, entries, rest, ht⟩
  next => cases ho

theorem RoundChange.buffer_eq {s t : Session} (h : RoundChange s t) : t.buffer = s.buffer := by
  cases h with
  | attach server capabilities options => rw [attach_frame]
  | detach server => rw [detach_frame]
  | takeCompletion place number server id reply => rw [takeCompletion_frame]

/-- An action of a run shows a list. The round that it ends was opened after `before` was told, and since
then `since` was told. -/
structure Shows (setup : Setup) (past : List Action) (a : Action) (old : List Observation)
    (column : Nat) (entries : List Match) (c : Round) (servers : List ServerId)
    (before since : List Observation) : Prop where
  told : (setup.session.after past).trace <+: old ∧
    old ++ [.call (.present column entries)] <+: (setup.session.after (past ++ [a])).trace
  justified : Justified (setup.session.after (past ++ [a])) (setup.session.after past).matcher old
    column entries c servers before since
  buffer : (setup.session.after (past ++ [a])).buffer = (setup.session.after past).buffer
  text : (setup.session.after past).buffer.lines =
    ((setup.session.buffer.replay before).replay since).lines

section
variable {setup : Setup} {old rest : List Observation} {column : Nat} {entries : List Match}

theorem Setup.trace_not_edit (setup : Setup) : ∀ o ∈ setup.session.trace, o.isEdit = false := by
  simp [Setup.session, log, isEdit]

/-- The text is what all edits told before have made of the text at the beginning. -/
theorem after_lines (setup : Setup) (actions : List Action) :
    (setup.session.after actions).buffer.lines =
      (setup.session.buffer.replay (setup.session.after actions).trace).lines := by
  obtain ⟨obs, ht, hb⟩ := after_rewrites setup.session actions
  rw [ht, Buffer.replay_append, Buffer.replay_eq_self _ (Setup.trace_not_edit setup), hb]

/-- A list is shown by an action that leaves the text as it is. -/
theorem RoundChange.shows_lines {past : List Action} {t : Session}
    (hc : RoundChange (setup.session.after past) t)
    (hpast : (setup.session.after past).trace <+: old)
    (ht : t.trace = old ++ .call (.present column entries) :: rest) :
    (setup.session.after past).buffer.lines = (setup.session.buffer.replay old).lines := by
  obtain ⟨more, rfl⟩ := hpast
  obtain ⟨obs, hobs, hedit⟩ := (Follows.of_roundChange hc).rewrites.unedited
    (by rw [RoundChange.buffer_eq hc])
  rw [ht, List.append_assoc] at hobs
  have hmore : ∀ o ∈ more, o.isEdit = false := fun o ho =>
    hedit o (List.append_cancel_left hobs ▸ List.mem_append_left _ ho)
  rw [Buffer.replay_append, Buffer.replay_eq_self _ hmore, after_lines]

theorem exists_shows {actions : List Action}
    (h : (setup.session.after actions).trace = old ++ .call (.present column entries) :: rest) :
    ∃ past a future c servers before since, actions = past ++ a :: future ∧
      Shows setup past a old column entries c servers before since := by
  induction actions using List.reverseRecOn generalizing rest with
  | nil =>
    have hm : .call (.present column entries) ∈ setup.session.trace := by
      change setup.session.trace = _ at h
      rw [h]
      simp
    simp [Setup.session, log] at hm
  | append_singleton actions a ih =>
    have later (hl : ∃ l, (setup.session.after actions).trace =
        old ++ .call (.present column entries) :: l) :
        ∃ past b future c servers before since, actions ++ [a] = past ++ b :: future ∧
          Shows setup past b old column entries c servers before since := by
      obtain ⟨l, hl⟩ := hl
      obtain ⟨past, b, future, c, servers, before, since, rfl, hs⟩ := ih hl
      exact ⟨past, b, future ++ [a], c, servers, before, since, by simp, hs⟩
    have hact := h
    rw [after_concat] at hact
    rcases act_cases (setup.session.after actions) a with hc | hc
    · exact later (Adds.shown_before (Evolves.adds hc) (by simp) hact)
    · rcases act_shown (after_historic setup actions) a hact with hl |
        ⟨hpast, c, servers, before, since, hj⟩
      · exact later hl
      · have hlines := RoundChange.shows_lines hc hpast hact
        rw [hj.opened, Buffer.replay_append] at hlines
        rw [← after_concat] at hj hc
        exact ⟨actions, a, [], c, servers, before, since, rfl, ⟨hpast, rest, by rw [h]; simp⟩, hj,
          RoundChange.buffer_eq hc, hlines⟩

end

/-- In every run, whenever results are shown, their start is between two characters of the line of the
cursor. It is right of the cursor exactly if the servers agree on a start that is. -/
theorem shownStart_rightOfCursor_iff (setup : Setup) (actions : List Action)
    (old rest : List Observation) (column : Nat) (entries : List Match)
    (h : (setup.session.after actions).trace = old ++ .call (.present column entries) :: rest) :
    ∃ past a future c servers before since, actions = past ++ a :: future ∧
      Shows setup past a old column entries c servers before since ∧
      let s := setup.session.after (past ++ [a])
      IsBoundary s.buffer.currentLine column ∧ column ≤ byteLength s.buffer.currentLine ∧
        (∀ b, s.mergeRequest.Unanimous c.replies s.bindings b → column = b) ∧
        ((∀ b, ¬ s.mergeRequest.Unanimous c.replies s.bindings b) →
          column = naiveStart s.buffer.currentLine s.buffer.cursor.column) ∧
        (s.buffer.cursor.column < column ↔
          ∃ b, s.mergeRequest.Unanimous c.replies s.bindings b ∧ s.buffer.cursor.column < b) := by
  obtain ⟨past, a, future, c, servers, before, since, rfl, hs⟩ := exists_shows h
  refine ⟨past, a, future, c, servers, before, since, rfl, hs, ?_⟩
  intro s
  have hguess : s.mergeRequest.naiveStart ≤ s.buffer.cursor.column := naiveStart_le _ _
  obtain rfl : column = s.mergeRequest.startColumn (answers c.replies s.bindings) :=
    hs.justified.merged.1
  have hboundary : IsBoundary s.buffer.currentLine
      (s.mergeRequest.startColumn (answers c.replies s.bindings)) :=
    @startColumn_isBoundary s.mergeRequest _ _ (naiveStart_isBoundary _ _)
  exact ⟨hboundary, hboundary ▸ floorColumn_le_byteLength _ _, fun b => startColumn_of_unanimous,
    startColumn_of_not_unanimous, lt_startColumn_iff hguess⟩

/-- A server answers with a range that starts past the cursor. -/
def pastCursor : Setup × List Action :=
  ({ config := {}, uri := "file:///a", lines := ["foo bar".toList], cursor := ⟨0, 3⟩, missing := [],
     signatureView := false, snippets := [], matcher := ⟨fun _ _ => true⟩, commands := none,
     cancellable := true },
   [.attach ⟨1⟩ { completion := some {} } {}, .triggerCompletion,
    .respond (.number 0) (.ok (.arr [itemFrom 5 "x"])), .deliver 0])

theorem shownStart_rightOfCursor_iff_pastCursor :
    ∃ past a future c servers before since old entries, pastCursor.2 = past ++ a :: future ∧
      Shows pastCursor.1 past a old 5 entries c servers before since ∧
      let s := pastCursor.1.session.after (past ++ [a])
      s.buffer.cursor.column = 3 ∧
        ∃ b, s.mergeRequest.Unanimous c.replies s.bindings b ∧ s.buffer.cursor.column < b := by
  have hshown : some 5 ∈ (pastCursor.1.session.after pastCursor.2).trace.map shownStart? := by
    decide +kernel
  have hcursor : ∀ actions ∈ pastCursor.2.inits,
      (pastCursor.1.session.after actions).buffer.cursor.column = 3 := by
    decide +kernel
  obtain ⟨old, entries, rest, h⟩ := exists_present hshown
  obtain ⟨past, a, future, c, servers, before, since, hp, hs, -, -, -, -, hiff⟩ :=
    shownStart_rightOfCursor_iff pastCursor.1 pastCursor.2 old rest 5 entries h
  have hthree := hcursor (past ++ [a]) ((List.mem_inits _ _).mpr ⟨future, by rw [hp]; simp⟩)
  exact ⟨past, a, future, c, servers, before, since, old, entries, hp, hs, hthree,
    hiff.mp (by rw [hthree]; decide)⟩

/-- Edits that begin behind the first part of a line leave it as it is. -/
theorem isPrefix_replay {b : Buffer} {p : Line} {n : Nat} {obs : List Observation}
    (hp : p <+: b.line n) (hbreak : '\n' ∉ p)
    (h : ∀ cause start stop text, .edit cause start stop text ∈ obs →
      start.before ⟨n, byteLength p⟩ = false) : p <+: (b.replay obs).line n := by
  induction obs generalizing b with
  | nil => exact hp
  | cons o obs ih =>
    have hrest {c : Buffer} (hc : p <+: c.line n) : p <+: (c.replay obs).line n :=
      ih hc fun cause start stop text hm => h cause start stop text (List.mem_cons_of_mem o hm)
    cases o with
    | edit cause start stop text =>
      exact hrest (Buffer.isPrefix_replace hp hbreak (h cause start stop text (by simp)) stop text)
    | _ => exact hrest hp

/-- The start that items name is the same in all lines that begin with the same text, if their ranges begin
in it. So in every run, whenever results are shown, the servers agree on a start in the line of the cursor
as it is then exactly if they do in that line as it was when they were asked, as long as both lines begin
with a text in which all ranges begin. They do if all edits in the meantime are behind that text. -/
theorem agreedStart_keptByTyping :
    (∀ (encoding : Encoding) (lineNumber : Nat) (p a b : Line) (items : List Item),
      StartWithin lineNumber encoding p items →
        resolveStart lineNumber (p ++ a) items encoding =
          resolveStart lineNumber (p ++ b) items encoding) ∧
    ∀ (setup : Setup) (actions : List Action) (old rest : List Observation) (column : Nat)
      (entries : List Match),
      (setup.session.after actions).trace = old ++ .call (.present column entries) :: rest →
      ∃ past a future c servers before since, actions = past ++ a :: future ∧
        Shows setup past a old column entries c servers before since ∧
        let s := setup.session.after (past ++ [a])
        let asked := (setup.session.buffer.replay before).line c.cursor.line
        ∀ p, p <+: asked →
          ('\n' ∉ p → (∀ cause start stop text, .edit cause start stop text ∈ since →
              start.before ⟨c.cursor.line, byteLength p⟩ = false) →
            p <+: s.buffer.currentLine) ∧
          (p <+: s.buffer.currentLine →
            (∀ server value, c.replies.find? server = some (.ok value) →
              StartWithin c.cursor.line (encodingIn s.bindings server) p
                (Response.ofJson value).items) →
            ∀ b, ({ s.mergeRequest with line := asked }.Unanimous c.replies s.bindings b ↔
                s.mergeRequest.Unanimous c.replies s.bindings b) ∧
              ({ s.mergeRequest with line := asked }.Unanimous c.replies s.bindings b →
                column = b)) := by
  constructor
  · intro encoding lineNumber p a b items h
    rw [resolveStart_append h, resolveStart_append h]
  · intro setup actions old rest column entries h
    obtain ⟨past, a, future, c, servers, before, since, rfl, hs⟩ := exists_shows h
    refine ⟨past, a, future, c, servers, before, since, rfl, hs, ?_⟩
    intro s asked p hasked
    have hline : s.buffer.cursor.line = c.cursor.line := hs.justified.line
    have hnow : s.buffer.currentLine =
        ((setup.session.buffer.replay before).replay since).line c.cursor.line := by
      have hlines : s.buffer.lines = _ := (congrArg Buffer.lines hs.buffer).trans hs.text
      rw [Buffer.currentLine, hline]
      simp only [Buffer.line, Buffer.line?, hlines]
    refine ⟨fun hbreak hedits => ?_, fun hkept hwithin b => ?_⟩
    · rw [hnow]
      exact isPrefix_replay hasked hbreak hedits
    · rw [← hline] at hwithin
      have hiff := @unanimous_line_iff s.mergeRequest _ _ _ _ hasked hkept hwithin b
      refine ⟨hiff, fun hu => ?_⟩
      have hcolumn : column = (s.mergeRound c).startColumn := hs.justified.merged.1
      rw [hcolumn, mergeRound_startColumn, startColumn_of_unanimous (hiff.mp hu)]

/-- A server is asked at the end of a word, which then grows, and answers with a range from its start. -/
def grownWord : Setup × List Action :=
  ({ config := {}, uri := "file:///a", lines := ["foo".toList], cursor := ⟨0, 3⟩, missing := [],
     signatureView := false, snippets := [], matcher := ⟨fun _ _ => true⟩, commands := none,
     cancellable := true },
   [.attach ⟨1⟩ { completion := some {} } {}, .triggerCompletion, .typeChar 'x',
    .respond (.number 0) (.ok (.arr [itemFrom 0 "y"])), .deliver 0])

/-- What is told leaves the first part of a line as it is, and all ranges that a server sends begin in
it. -/
def keepsStart (lineNumber : Nat) (p : Line) (bindings : ServerMap Binding) : Observation → Bool
  | .edit _ start _ _ => !start.before ⟨lineNumber, byteLength p⟩
  | .note (.recorded _ server (.ok value)) =>
    StartWithin lineNumber (encodingIn bindings server) p (Response.ofJson value).items
  | _ => true

theorem agreedStart_keptByTyping_grownWord :
    ∃ past a future c servers before since old entries, grownWord.2 = past ++ a :: future ∧
      Shows grownWord.1 past a old 0 entries c servers before since ∧
      let s := grownWord.1.session.after (past ++ [a])
      let asked := (grownWord.1.session.buffer.replay before).line c.cursor.line
      "foo".toList <+: asked ∧ "foo".toList <+: s.buffer.currentLine ∧
        ∀ b, { s.mergeRequest with line := asked }.Unanimous c.replies s.bindings b ↔
          s.mergeRequest.Unanimous c.replies s.bindings b := by
  have hshown : some 0 ∈ (grownWord.1.session.after grownWord.2).trace.map shownStart? := by
    decide +kernel
  have hline : ∀ actions ∈ grownWord.2.inits,
      (grownWord.1.session.after actions).buffer.cursor.line = 0 := by
    decide +kernel
  have hkept : ∀ actions ∈ grownWord.2.inits,
      ∀ o ∈ (grownWord.1.session.after grownWord.2).trace,
        keepsStart 0 "foo".toList (grownWord.1.session.after actions).bindings o = true := by
    decide +kernel
  have hasked : ∀ before ∈ (grownWord.1.session.after grownWord.2).trace.inits,
      "foo".toList <+: (grownWord.1.session.buffer.replay before).line 0 := by
    decide +kernel
  obtain ⟨old, entries, rest, h⟩ := exists_present hshown
  obtain ⟨past, a, future, c, servers, before, since, hp, hs, htyped⟩ :=
    agreedStart_keptByTyping.2 grownWord.1 grownWord.2 old rest 0 entries h
  have hrun : past ++ [a] ∈ grownWord.2.inits :=
    (List.mem_inits _ _).mpr ⟨future, by rw [hp]; simp⟩
  have hzero : c.cursor.line = 0 := hs.justified.line.symm.trans (hline _ hrun)
  rw [hs.justified.opened, List.append_assoc] at h
  have hold := hasked before ((List.mem_inits _ _).mpr ⟨_, h.symm⟩)
  rw [← hzero] at hold
  have hsince {o : Observation} (ho : o ∈ since) := hkept _ hrun o (by rw [h]; simp [ho])
  obtain ⟨htext, hagree⟩ := htyped "foo".toList hold
  have hnew := htext (by decide) fun cause start stop text hm => by
    rw [hzero]
    simpa [keepsStart] using hsince hm
  refine ⟨past, a, future, c, servers, before, since, old, entries, hp, hs, hold, hnew, fun b =>
    (hagree hnew (fun server value hr => ?_) b).1⟩
  obtain ⟨n, -, hk⟩ := (hs.justified.replies server (.ok value)).mp hr
  rw [hzero]
  simpa [keepsStart] using hsince (mem_notes.mp hk.mem)

end Session
end Autocomplete

import Autocomplete.Proofs.Buffer
import Autocomplete.Proofs.Session.Acceptance
import Autocomplete.Proofs.Session.Replay

/-! Where text that was taken out of the buffer for a snippet is given back, after its server has been
asked for the missing parts of the accepted item. It is given back where the cursor is then. That is
where it was taken out, unless the editor has put the cursor elsewhere while the answer was on its
way. -/
namespace Autocomplete
open Text

theorem Observation.Routine.textMove?_eq_none {o : Observation} (h : o.Routine) :
    o.textMove? = none := by
  cases h <;> rfl

namespace Session
open Observation

/-- What is told by an action before text is taken out or given back. -/
def beforeMove (s : Session) (a : Action) : List Observation :=
  (s.news a).takeWhile (·.textMove?.isNone)

/-- Where the cursor is when text is taken out or given back by an action. -/
def movePlace (s : Session) (a : Action) : Cursor :=
  s.buffer.carry s.buffer.cursor (s.beforeMove a)

/-- By an action, text is taken out of the buffer from a place to the end of its line, which is the line
of the cursor. Nothing else changes the text, and the cursor comes to this place. One that was behind
the end of the line stays as far behind it. -/
structure TakesOut (s : Session) (a : Action) (e : Expansion) (start : Cursor) : Prop where
  told : ∃ after, s.news a = s.beforeMove a ++
    .edit (.makeRoom e) start ⟨start.line, byteLength s.buffer.currentLine⟩ [] :: after ∧
      ∀ o ∈ s.beforeMove a ++ after, o.isEdit = false
  line : start.line = s.buffer.cursor.line
  cursor : s.buffer.cursor.line < s.buffer.lines.length → (s.act a).buffer.cursor =
    ⟨start.line, start.column + (s.buffer.cursor.column - byteLength s.buffer.currentLine)⟩

/-- By an action, text is given back once: an engine is to expand it where the cursor is, or it is put
back there. -/
inductive GivesBack (s : Session) (a : Action) (e : Expansion) : Prop where
  | handed (engine : String) (after : List Observation)
      (told : s.news a = s.beforeMove a ++ .call (.expand engine e.snippet) :: after)
      (once : ∀ o ∈ after, o.textMove? = none)
  | putBack (after : List Observation)
      (told : s.news a = s.beforeMove a ++
        .edit .putBack (s.movePlace a) (s.movePlace a) e.literal :: after)
      (once : ∀ o ∈ after, o.textMove? = none)

theorem beforeMove_eq {s : Session} {a : Action} {before after : List Observation}
    {o : Observation} (h : (s.act a).trace = s.trace ++ (before ++ o :: after))
    (hb : ∀ o ∈ before, o.textMove? = none) (ho : o.textMove? ≠ none) :
    s.beforeMove a = before := by
  rw [beforeMove, news_eq h, List.takeWhile_append_of_pos fun o hm => by simp [hb o hm],
    List.takeWhile_cons_of_neg (by simpa using ho), List.append_nil]

/-- The place from which a word and the rest of its line are taken out. -/
def wordStart (s : Session) (word : String) : Cursor :=
  let line := s.buffer.currentLine
  ⟨s.buffer.cursor.line,
    floorColumn line (floorColumn line s.buffer.cursor.column - byteLength word.toList)⟩

theorem removeInsertedWord_cursor (s : Session) (word template : String)
    (hline : s.buffer.cursor.line < s.buffer.lines.length) :
    (s.removeInsertedWord word template).1.buffer.cursor = ⟨(s.wordStart word).line,
      (s.wordStart word).column + (s.buffer.cursor.column - byteLength s.buffer.currentLine)⟩ := by
  let line := s.buffer.currentLine
  let stop := floorColumn line s.buffer.cursor.column
  have hfloor : floorColumn line (floorColumn line (stop - byteLength word.toList)) =
      floorColumn line (stop - byteLength word.toList) :=
    congrArg byteLength (takeBytes_floorColumn line _)
  have hcut : floorColumn line (stop - byteLength word.toList) ≤ s.buffer.cursor.column := by
    have hstart := floorColumn_le line (stop - byteLength word.toList)
    have hstop : stop ≤ s.buffer.cursor.column := floorColumn_le line _
    omega
  exact Buffer.cut_cursor hline hcut hfloor

theorem prepareExpansion_some {s : Session} {expand : Bool} {m : Match} {e : Expansion}
    (h : (s.prepareExpansion expand m).2 = some e) :
    ∃ template, e = (s.removeInsertedWord m.word template).2 ∧
      (s.prepareExpansion expand m).1 = (s.removeInsertedWord m.word template).1 := by
  unfold prepareExpansion at h ⊢
  split at h
  · cases h
  next template _ =>
    split at h
    next ha =>
      rw [if_pos ha]
      exact ⟨template, (Option.some.inj h).symm, rfl⟩
    next => cases h

/-- An item is only held if its server is asked for the missing parts. -/
theorem supplyEdits_held {s : Session} {m : Match} {expansion : Option Expansion}
    {p : PendingResolve} (hs : s.resolve = none)
    (hp : (s.supplyEdits m expansion).resolve = some p) :
    s.supplyEdits m expansion = s.sendResolve m.payload expansion ∧ p.expansion = expansion := by
  have none_held {t : Session} (ht : t.resolve = none)
      (hp : (t.finishAccept m.payload none expansion).resolve = some p) : False := by
    rw [finishAccept_resolve, ht] at hp
    cases hp
  unfold supplyEdits at hp ⊢
  split at hp
  next edit edits _ => exact (none_held (by rw [applyEdits_frame, hs]) hp).elim
  next =>
    split at hp
    next ha =>
      rw [if_pos ha]
      obtain rfl := Option.some.inj hp
      exact ⟨rfl, rfl⟩
    next => exact (none_held hs hp).elim

theorem act_eq_acceptMatch {s : Session} {a : Action} {m : Match} (h : s.accepted? a = some m) :
    s.act a = s.acceptMatch m := by
  unfold accepted? at h
  split at h
  next selection _ =>
    split at h
    next => cases h
    next hd =>
      change s.completeDone (s.selected? selection) = s.acceptMatch m
      unfold completeDone
      rw [if_neg hd, h]
  next => cases h

theorem accepted_takesOut {s : Session} {a : Action} {m : Match} {p : PendingResolve}
    {e : Expansion} (ha : s.accepted? a = some m) (hp : (s.act a).resolve = some p)
    (he : p.expansion = some e) : TakesOut s a e (s.wordStart m.word) := by
  let r := (s.reset .accepted).supersedeResolve
  have hready : Tells Routine s r := (Tells.reset s .accepted).trans (Tells.supersedeResolve _)
  have hbuffer : r.buffer = s.buffer := by
    dsimp only [r]
    rw [supersedeResolve_frame, reset_buffer]
  have hresolve : (r.prepareExpansion s.expandSnippet m).1.resolve = none := by
    have hr : r.resolve = none := (supersedeResolve_moves _).2
    rw [prepareExpansion_frame, hr]
  have hact : s.act a = (r.prepareExpansion s.expandSnippet m).1.supplyEdits m
      (r.prepareExpansion s.expandSnippet m).2 := act_eq_acceptMatch ha
  rw [hact] at hp
  obtain ⟨hsend, hexpansion⟩ := supplyEdits_held hresolve hp
  obtain ⟨template, he', hremove⟩ := prepareExpansion_some (hexpansion ▸ he)
  rw [hsend, hremove] at hact
  clear_value r
  let w := (r.removeInsertedWord m.word template).1
  have hstart : r.wordStart m.word = s.wordStart m.word := by rw [wordStart, hbuffer, wordStart]
  obtain ⟨before, hr, hb⟩ := hready
  obtain ⟨after, ht, hafter⟩ := Tells.sendResolve w m.payload
    (r.prepareExpansion s.expandSnippet m).2
  have hw : w.trace = r.trace ++ [.edit (.makeRoom e) (r.wordStart m.word)
      ⟨(r.wordStart m.word).line, byteLength r.buffer.currentLine⟩ []] := by
    rw [he']
    rfl
  have htrace : (s.act a).trace = s.trace ++ (before ++ .edit (.makeRoom e) (s.wordStart m.word)
      ⟨(s.wordStart m.word).line, byteLength s.buffer.currentLine⟩ [] :: after) := by
    rw [hact, ht, hw, hr, hstart, hbuffer]
    simp
  have hbefore : s.beforeMove a = before :=
    beforeMove_eq htrace (fun o ho => (hb o ho).textMove?_eq_none) nofun
  constructor
  · refine ⟨after, ?_, ?_⟩
    · rw [hbefore, news_eq htrace]
    · rw [hbefore]
      intro o ho
      exact (List.mem_append.mp ho).elim (fun h => (hb o h).not_edit) fun h => (hafter o h).not_edit
  · rfl
  · intro hline
    rw [← hbuffer] at hline
    rw [hact, sendResolve_buffer, removeInsertedWord_cursor r m.word template hline, hstart, hbuffer]

/-- Nothing is told of text that is taken out or given back. -/
abbrev Unmoved : Session → Session → Prop := Tells (·.textMove? = none)

theorem Quiet.unmoved {s t : Session} (h : Quiet s t) : Unmoved s t := by
  induction h with
  | refl => exact .of_eq rfl
  | tail _ hc ih =>
    obtain ⟨obs, ht, hk⟩ := hc.adds
    refine ih.trans ⟨obs, ht, fun o ho => textMove?_eq_none fun he => ?_⟩
    simpa [he] using hk o ho

theorem concludeAccept_unmoved (s : Session) (payload : Payload) (resolved : Option Command)
    (expanded : Bool) : Unmoved s (s.concludeAccept payload resolved expanded) := by
  unfold concludeAccept
  extract_lets t u
  have hu : Unmoved s u := Tells.trans (.one rfl rfl) (.one rfl rfl)
  split
  · exact hu.trans (Quiet.unmoved (executeCommand_quiet ..))
  · exact hu

section
variable {s v : Session} {a : Action} {payload : Payload} {resolved : Option Command} {e : Expansion}

/-- The text moves once in an action: before that, the state `v` is reached. -/
theorem news_eq_move {w : Session} {before : List Observation} {o : Observation}
    (hv : v.trace = s.trace ++ before) (hb : ∀ o ∈ before, o.textMove? = none)
    (hw : w.trace = v.trace ++ [o]) (ho : o.textMove? ≠ none) (hact : Unmoved w (s.act a)) :
    s.beforeMove a = before ∧ ∃ after, s.news a = s.beforeMove a ++ o :: after ∧
      ∀ x ∈ after, x.textMove? = none := by
  obtain ⟨after, ht, honce⟩ := hact
  have htrace : (s.act a).trace = s.trace ++ (before ++ o :: after) := by
    rw [ht, hw, hv]
    simp
  have hbefore := beforeMove_eq htrace hb ho
  refine ⟨hbefore, after, ?_, honce⟩
  rw [hbefore, news_eq htrace]

/-- What is put back is put where the cursor is. -/
theorem restoreLiteral_givesBack (hm : Unmoved s v) (hf : Follows s v)
    (hact : s.act a = (v.restoreLiteral e).concludeAccept payload resolved false) :
    GivesBack s a e := by
  obtain ⟨before, hv, hb⟩ := hm
  have hafter : Unmoved (v.restoreLiteral e) (s.act a) := hact ▸ concludeAccept_unmoved ..
  have hw : (v.restoreLiteral e).trace =
      v.trace ++ [.edit .putBack v.buffer.cursor v.buffer.cursor e.literal] := rfl
  obtain ⟨hbefore, after, told, once⟩ := news_eq_move hv hb hw nofun hafter
  have hplace : s.movePlace a = v.buffer.cursor := by
    have hcarry := hf.carry hv []
    rw [List.append_nil] at hcarry
    rw [movePlace, hbefore, ← hcarry]
    rfl
  rw [← hplace] at told
  exact .putBack after told once

theorem finishAccept_givesBack (hm : Unmoved s v) (hf : Follows s v)
    (hact : s.act a = v.finishAccept payload resolved (some e)) : GivesBack s a e := by
  change s.act a = (v.expand e).1.concludeAccept payload resolved (v.expand e).2 at hact
  unfold expand at hact
  split at hact
  · split at hact
    next engine _ =>
      obtain ⟨before, hv, hb⟩ := hm
      let w := v.call (.expand engine.name e.snippet)
      have hlog : Unmoved w (w.log .debug "accept" "Expanded snippet"
        [("engine", .str engine.name)]) := .one rfl rfl
      have hafter : Unmoved w (s.act a) := hact ▸ hlog.trans (concludeAccept_unmoved ..)
      have hw : w.trace = v.trace ++ [.call (.expand engine.name e.snippet)] := rfl
      obtain ⟨_, after, told, once⟩ := news_eq_move hv hb hw nofun hafter
      exact .handed engine.name after told once
    next =>
      have hr := Change.report v "No snippet engine available, inserting literal text"
      exact restoreLiteral_givesBack (hm.trans (Quiet.unmoved hr.quiet))
        (hf.trans (.report v _)) hact
  · exact restoreLiteral_givesBack hm hf hact

end

/-- The answer for the item that is held gives its text back. -/
theorem resolution_givesBack {s : Session} {p : PendingResolve} {e : Expansion} {place n : Nat}
    {server : ServerId} {reply : Reply} (hp : s.resolve = some p) (he : p.expansion = some e)
    (hr : s.resolution? (.deliver place) = some (n, server, reply)) :
    GivesBack s (.deliver place) e := by
  let v : Session := { s with queue := s.queue.eraseIdx place, resolve := none }
  have hact : s.act (.deliver place) = (v.applyResolved p reply).1.finishAccept p.payload
      (v.applyResolved p reply).2 p.expansion := by
    obtain ⟨hm, hl⟩ := resolution?_eq_some.mp hr
    change s.deliver place = _
    rw [deliver_eq hm, hl]
    simp only [handle, takeResolved, hp, v, if_true]
  have hm : Unmoved s v := .of_eq rfl
  have hf : Follows s v := .of_unedited (.of_eq rfl) rfl
  rw [he] at hact
  exact finishAccept_givesBack (hm.trans (Quiet.unmoved (applyResolved_quiet v p reply)))
    (hf.trans (.applyResolved v p reply)) hact

/-- If the editor does not move the cursor during a run, text that an action gives back afterwards is
given back where the cursor was before the run, as far as edits have not moved that place. -/
theorem movePlace_after {s : Session} {actions : List Action}
    (h : ∀ a ∈ actions, a.setsCursor? = none) (a : Action) :
    (s.after actions).movePlace a = s.buffer.carry s.buffer.cursor
      (s.told actions ++ (s.after actions).beforeMove a) := by
  have hf := after_follows s actions h
  obtain ⟨obs, ht, _⟩ := id hf
  rw [told_eq ht]
  exact hf.carry ht _

/-- Text that was taken out for an accepted item is given back once when the answer for the item is
taken, and where the cursor is then. Unless the editor has moved the cursor meanwhile, this is where the
text was taken out, as far as later edits have not moved that place. If the editor has moved the cursor,
it is where it was put last, be it on another line. -/
theorem heldText_givenBackAtCursor (s : Session) (later : List Action) {a : Action} {m : Match}
    {p : PendingResolve} {e : Expansion} {place n : Nat} {server : ServerId} {reply : Reply} :
    let t := s.act a
    let u := t.after later
    let answer : Action := .deliver place
    s.accepted? a = some m → t.resolve = some p → p.expansion = some e →
    u.resolve = some p → u.resolution? answer = some (n, server, reply) →
    TakesOut s a e (s.wordStart m.word) ∧ GivesBack u answer e ∧
      ((∀ b ∈ later, b.setsCursor? = none) → u.movePlace answer =
        t.buffer.carry t.buffer.cursor (t.told later ++ u.beforeMove answer)) ∧
      ∀ during cursor since, later = during ++ .setCursor cursor :: since →
        (∀ b ∈ since, b.setsCursor? = none) →
        let v := (t.after during).act (.setCursor cursor)
        u.movePlace answer = v.buffer.carry cursor (v.told since ++ u.beforeMove answer) := by
  intro t u answer ha hp he hu hr
  refine ⟨accepted_takesOut ha hp he, resolution_givesBack hu he hr, ?_, ?_⟩
  · intro hlater
    exact movePlace_after hlater answer
  · rintro during cursor since rfl hsince v
    have hv : u = v.after since := t.after_append during (.setCursor cursor :: since)
    rw [hv]
    exact movePlace_after hsince answer

/-- An item with a snippet is accepted, and until its missing parts are there the editor moves the
cursor to the next line and stops typing. -/
def movedOn : Setup × List Action × Selection × List Action :=
  ({ config := {}, uri := "file:///a", lines := [['f', 'o', 'o', ')'], ['b', 'a', 'r']],
     cursor := ⟨0, 3⟩, missing := [], signatureView := false, snippets := [⟨"ultisnips", true⟩],
     matcher := ⟨fun _ _ => true⟩, commands := none, cancellable := true },
   [.attach ⟨1⟩ { completion := some { resolves := true } } {},
    .setVisible true, .acceptPending],
   .given (.ofPayload
     ⟨⟨1⟩, { label := "foo", insertText := some "foo($1)", insertTextFormat := some 2 }⟩ false 0),
   [.setCursor ⟨1, 0⟩, .setInserting false,
    .respond (.number 0) (.ok (.obj [("label", .str "foo")]))])

/-- The text is taken out of the first line and put back into the second one. -/
theorem heldText_givenBackAtCursor_movedOn :
    let s := movedOn.1.session.after movedOn.2.1
    let a : Action := .completeDone movedOn.2.2.1
    let u := (s.act a).after movedOn.2.2.2
    ∃ e, TakesOut s a e ⟨0, 0⟩ ∧ GivesBack u (.deliver 0) e ∧ u.movePlace (.deliver 0) = ⟨1, 0⟩ ∧
      (u.act (.deliver 0)).buffer.lines = [[], ['f', 'o', 'o', ')', 'b', 'a', 'r']] := by
  intro s a u
  obtain ⟨e, hheld⟩ : ∃ e, (s.act a).held = some e :=
    Option.isSome_iff_exists.mp (by decide +kernel)
  obtain ⟨p, hp, he⟩ := Option.bind_eq_some_iff.mp hheld
  have hu : u.resolve = some p := hp
  have hr : u.resolution? (.deliver 0) = some (0, ⟨1⟩, .ok (.obj [("label", .str "foo")])) := rfl
  obtain ⟨htaken, hgiven, _, hmoved⟩ :=
    heldText_givenBackAtCursor s movedOn.2.2.2 (a := a) rfl hp he hu hr
  have hstart : s.wordStart "foo" = ⟨0, 0⟩ := by decide +kernel
  have hplace : u.movePlace (.deliver 0) = ⟨1, 0⟩ := by
    rw [hmoved [] ⟨1, 0⟩ _ rfl (by decide +kernel)]
    decide +kernel
  exact ⟨e, hstart ▸ htaken, hgiven, hplace, by decide +kernel⟩

end Session
end Autocomplete

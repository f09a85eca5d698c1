import Autocomplete.Proofs.Session.Telling

/-! The text is what the edits that are told have made of it. The cursor moves with it, and only the
editor puts it anywhere else. -/
namespace Autocomplete

def Observation.isEdit : Observation → Bool
  | .edit .. => true
  | _ => false

namespace Observation

theorem Routine.not_edit {o : Observation} (h : o.Routine) : o.isEdit = false := by
  cases h <;> rfl

theorem Reporting.not_edit {o : Observation} (h : o.Reporting) : o.isEdit = false := by
  cases h with
  | routine h => exact h.not_edit
  | failure => rfl

theorem Helping.not_edit {o : Observation} (h : o.Helping) : o.isEdit = false := by
  cases h <;> rfl

end Observation

/-- Where the editor puts the cursor. -/
def Action.setsCursor? : Action → Option Cursor
  | .perform ⟨.setCursor cursor, _⟩ => some cursor
  | _ => none

namespace Buffer

/-- Does to a buffer what is told of an edit. -/
def follow (b : Buffer) : Observation → Buffer
  | .edit _ start stop text => b.replace start stop text
  | _ => b

def replay (b : Buffer) (obs : List Observation) : Buffer := obs.foldl follow b

/-- Where a place is after some edits; it moves with the text as a cursor does. -/
def carry (b : Buffer) (place : Cursor) (obs : List Observation) : Cursor :=
  ({ b with cursor := place }.replay obs).cursor

theorem replay_append (b : Buffer) (obs more : List Observation) :
    b.replay (obs ++ more) = (b.replay obs).replay more := List.foldl_append

theorem replay_eq_self (b : Buffer) {obs : List Observation} (h : ∀ o ∈ obs, o.isEdit = false) :
    b.replay obs = b := by
  induction obs with
  | nil => rfl
  | cons o obs ih =>
    obtain ⟨ho, hobs⟩ := List.forall_mem_cons.mp h
    have hf : b.follow o = b := by
      cases o with
      | edit => cases ho
      | _ => rfl
    rw [replay, List.foldl_cons, hf]
    exact ih hobs

/-- For what edits do to the text, it does not matter where the cursor is and what the mode is. -/
theorem replay_with (b : Buffer) (cursor : Cursor) (inserting : Bool) (obs : List Observation) :
    { b with cursor, inserting }.replay obs =
      { b.replay obs with cursor := b.carry cursor obs, inserting } := by
  induction obs generalizing b cursor with
  | nil => rfl
  | cons o obs ih =>
    cases o with
    | edit cause start stop text =>
      exact ih (b.replace start stop text) ({ b with cursor }.replace start stop text).cursor
    | _ => exact ih b cursor

theorem carry_with (b : Buffer) (cursor place : Cursor) (inserting : Bool) (obs : List Observation) :
    { b with cursor, inserting }.carry place obs = b.carry place obs := by
  have h := congrArg Buffer.cursor (replay_with b place inserting obs)
  exact h

theorem carry_append (b : Buffer) (place : Cursor) (obs more : List Observation) :
    b.carry place (obs ++ more) = (b.replay obs).carry (b.carry place obs) more := by
  have h := replay_with b place b.inserting obs
  rw [carry, replay_append, h, replay_with]

theorem replay_tick (b : Buffer) (obs : List Observation) :
    (b.replay obs).tick = b.tick + obs.countP (·.isEdit) := by
  induction obs generalizing b with
  | nil => rfl
  | cons o obs ih =>
    have hrest := ih (b.follow o)
    cases o with
    | edit cause start stop text =>
      rw [List.countP_cons_of_pos (by rfl), ← Nat.add_assoc, Nat.add_right_comm]
      exact hrest
    | _ =>
      rw [List.countP_cons_of_neg (by simp [Observation.isEdit])]
      exact hrest

end Buffer

namespace Session
open Observation

/-- What is told during a run. -/
def told (s : Session) (actions : List Action) : List Observation :=
  (s.after actions).trace.drop s.trace.length

theorem told_eq {s : Session} {actions : List Action} {obs : List Observation}
    (h : (s.after actions).trace = s.trace ++ obs) : s.told actions = obs := by
  rw [told, h, List.drop_left]

/-- From one state to the next, the text changes as it is told. -/
def Rewrites (s t : Session) : Prop :=
  ∃ obs, t.trace = s.trace ++ obs ∧ t.buffer =
    { s.buffer.replay obs with cursor := t.buffer.cursor, inserting := t.buffer.inserting }

/-- Besides, the cursor moves with it. -/
def Follows (s t : Session) : Prop :=
  ∃ obs, t.trace = s.trace ++ obs ∧ t.buffer =
    { s.buffer.replay obs with inserting := t.buffer.inserting }

/-- No edit is told. -/
abbrev Unedited : Session → Session → Prop := Tells (·.isEdit = false)

theorem Tells.unedited {s t : Session} (h : Tells Routine s t) : Unedited s t :=
  h.mono fun _ => Routine.not_edit

namespace Rewrites

variable {s t u : Session}

theorem trans (h : Rewrites s t) (g : Rewrites t u) : Rewrites s u := by
  obtain ⟨first, ht, hb⟩ := h
  obtain ⟨second, hu, hc⟩ := g
  refine ⟨first ++ second, by rw [hu, ht, List.append_assoc], ?_⟩
  rw [hb, Buffer.replay_with] at hc
  rw [hc, Buffer.replay_append]

/-- The cursor and the mode are not part of the text. -/
theorem still (h : Unedited s t) (hb : t.buffer =
      { s.buffer with cursor := t.buffer.cursor, inserting := t.buffer.inserting }) :
    Rewrites s t := by
  obtain ⟨obs, ht, ho⟩ := h
  refine ⟨obs, ht, ?_⟩
  rw [s.buffer.replay_eq_self ho]
  exact hb

theorem edit (s : Session) (cause : EditCause) (start stop : Cursor) (text : List Char) :
    Rewrites s (s.edit cause start stop text) := ⟨[.edit cause start stop text], rfl, rfl⟩

/-- If the edits that were counted are as many as before, none is told. -/
theorem unedited (h : Rewrites s t) (ht : t.buffer.tick = s.buffer.tick) : Unedited s t := by
  obtain ⟨obs, hobs, hb⟩ := h
  refine ⟨obs, hobs, ?_⟩
  rw [hb, Buffer.replay_tick] at ht
  have hcount : obs.countP (·.isEdit) = 0 := by omega
  intro o ho
  simpa using List.countP_eq_zero.mp hcount o ho

end Rewrites

theorem Change.rewrites {s t : Session} (h : Change s t) : Rewrites s t := by
  cases h with
  | edit cause start stop text => exact .edit s cause start stop text
  | logAll records => exact .still (Tells.logAll s records fun _ => rfl) rfl
  | report message =>
    have ht : Unedited s (s.report .warning message) :=
      Tells.report s .warning message (fun _ => rfl) rfl
    exact .still ht (by rw [report_frame])
  | tell => exact .still (.one rfl rfl) rfl
  | armCompletion => exact .still (.one rfl rfl) rfl
  | armSignatureHelp => exact .still (.one rfl rfl) rfl
  | registerCommand server command reaction =>
    have ht := (Adds.registerCommand s server command reaction).routine (by simp) (by simp)
    exact .still ht.unedited (by rw [registerCommand_frame])
  | giveUpRound reason =>
    exact .still (Tells.giveUpRound s reason).unedited (by rw [giveUpRound_frame])
  | openRound trigger => exact .still (Tells.openRound s trigger).unedited (by rw [openRound_frame])
  | cancelSignatureRound =>
    exact .still (Tells.cancelSignatureRound s).unedited (by rw [cancelSignatureRound_frame])
  | openSignatureRound trigger =>
    exact .still (Tells.openSignatureRound s trigger).unedited (by rw [openSignatureRound_frame])
  | takeSignature place number server reply =>
    have ht := Tells.takeSignature { s with queue := s.queue.eraseIdx place } server reply
    exact .still (ht.mono fun _ => Helping.not_edit) (by rw [takeSignature_frame])
  | sendCommand => exact .still (.one (by rw [send_frame]) rfl) (by rw [send_frame])
  | answer => exact .still (.of_eq (by rw [answer_frame])) (by rw [answer_frame])
  | _ => exact .still (.of_eq rfl) rfl

theorem Quiet.rewrites {s t : Session} (h : Quiet s t) : Rewrites s t := by
  induction h with
  | refl => exact .still (.of_eq rfl) rfl
  | tail _ hc ih => exact ih.trans hc.rewrites

section
variable (s : Session)

theorem startRound_buffer (trigger : Trigger) : (s.startRound trigger).buffer = s.buffer := by
  rw [startRound, openRound_frame, giveUpRound_frame]

theorem sendSignatureHelp_buffer (trigger : Option Char) :
    (s.sendSignatureHelp trigger).buffer = s.buffer := by
  rw [sendSignatureHelp, openSignatureRound_frame, cancelSignatureRound_frame]

theorem triggerSignatureHelp_buffer : s.triggerSignatureHelp.buffer = s.buffer := by
  unfold triggerSignatureHelp
  split
  · exact sendSignatureHelp_buffer _ none
  · rfl

theorem scheduleSubsequent_buffer (trigger : Trigger) :
    (s.scheduleSubsequent trigger).buffer = s.buffer := by
  unfold scheduleSubsequent
  extract_lets window elapsed wait t
  split
  · exact startRound_buffer t trigger
  · rfl

theorem scheduleSignatureHelp_buffer (c : Char) :
    (s.scheduleSignatureHelp c).buffer = s.buffer := by
  unfold scheduleSignatureHelp
  split
  · split <;> rfl
  · rfl

theorem charInserted_buffer (c : Char) : (s.charInserted c).buffer = s.buffer := by
  unfold charInserted
  split
  · rfl
  · extract_lets t
    have ht : t.buffer = s.buffer := by
      dsimp only [t]
      split
      · exact scheduleSignatureHelp_buffer s c
      · rfl
    rw [← ht]
    split
    · unfold refreshVisible
      split
      · exact scheduleSubsequent_buffer t .incomplete
      · split
        · exact scheduleSubsequent_buffer t .refresh
        · rfl
    · unfold scheduleLeading
      split
      · rfl
      · split <;> rfl

theorem textDeleted_buffer : s.textDeleted.buffer = s.buffer := by
  unfold textDeleted
  split
  · rfl
  · extract_lets cursor qualifies
    split <;> rfl

theorem cursorMoved_buffer : s.cursorMoved.buffer = s.buffer := by
  unfold cursorMoved
  split
  · split <;> rfl
  · rfl

theorem reset_buffer (reason : CancelReason) : (s.reset reason).buffer = s.buffer := by
  dsimp only [reset, cancelSignatureHelp]
  rw [giveUpRound_frame, cancelSignatureRound_frame]
  rfl

theorem sendResolve_buffer (payload : Payload) (expansion : Option Expansion) :
    (s.sendResolve payload expansion).buffer = s.buffer := by
  have hf : (s.send payload.server .resolve payload.item.encode).1.buffer = s.buffer := by
    rw [send_frame]
  unfold sendResolve
  generalize s.send payload.server .resolve payload.item.encode = sent at hf ⊢
  exact hf

theorem executeCommand_buffer (server : ServerId) (command : Command) :
    (s.executeCommand server command).buffer = s.buffer := by
  have hfollow (t : Session) (f : FollowUp) : (t.followUp f).buffer = t.buffer := by
    unfold followUp
    extract_lets u
    cases f with
    | triggerCompletion => exact startRound_buffer u.dropCompletionTimer .manual
    | triggerSignatureHelp => exact triggerSignatureHelp_buffer u
  unfold executeCommand
  split
  next handler _ =>
    unfold runHandler
    extract_lets t u
    have hu : u.buffer = s.buffer := by
      dsimp only [u]
      split <;> rfl
    split
    next f _ => exact (hfollow u f).trans hu
    next => exact hu
  next =>
    split
    · extract_lets t params
      have hf := congrArg Session.buffer (t.send_frame server (.command command.name) params)
      exact hf
    · rw [report_frame]

end

namespace Follows

variable {s t u : Session}

theorem trans (h : Follows s t) (g : Follows t u) : Follows s u := by
  obtain ⟨first, ht, hb⟩ := h
  obtain ⟨second, hu, hc⟩ := g
  refine ⟨first ++ second, by rw [hu, ht, List.append_assoc], ?_⟩
  have hr := (s.buffer.replay first).replay_with (s.buffer.replay first).cursor t.buffer.inserting
    second
  rw [← hb] at hr
  rw [hc, hr, Buffer.replay_append]
  rfl

theorem of_buffer (h : Rewrites s t)
    (hb : t.buffer = { s.buffer with inserting := t.buffer.inserting }) : Follows s t := by
  obtain ⟨obs, ht, ho⟩ := h.unedited (by rw [hb])
  refine ⟨obs, ht, ?_⟩
  rw [s.buffer.replay_eq_self ho]
  exact hb

theorem of_unedited (h : Unedited s t) (hb : t.buffer = s.buffer) : Follows s t :=
  of_buffer (.still h (by rw [hb])) (by rw [hb])

-- Quiet changes may move the cursor and edit the text, so that the buffer is known to be the same by
-- itself; the edits that it counts then show that none is told.
theorem of_quiet (h : Quiet s t) (hb : t.buffer = s.buffer) : Follows s t :=
  of_buffer (Quiet.rewrites h) (by rw [hb])

theorem refl (s : Session) : Follows s s := of_quiet .refl rfl

theorem edit (s : Session) (cause : EditCause) (start stop : Cursor) (text : List Char) :
    Follows s (s.edit cause start stop text) := ⟨[.edit cause start stop text], rfl, rfl⟩

theorem log (s : Session) (level : Level) (area message : String) (fields : List (String × Json)) :
    Follows s (s.log level area message fields) := of_quiet (Change.log ..).quiet rfl

theorem report (s : Session) (message : String) : Follows s (s.report .warning message) :=
  of_quiet (Change.report ..).quiet (by rw [report_frame])

theorem reset (s : Session) (reason : CancelReason) : Follows s (s.reset reason) :=
  of_quiet (reset_quiet s reason) (s.reset_buffer reason)

theorem executeCommand (s : Session) (server : ServerId) (command : Command) :
    Follows s (s.executeCommand server command) :=
  of_quiet (executeCommand_quiet ..) (s.executeCommand_buffer ..)

theorem charInserted (s : Session) (c : Char) : Follows s (s.charInserted c) :=
  of_quiet (charInserted_quiet s c) (s.charInserted_buffer c)

theorem applyEdits (s : Session) (server : ServerId) (edits : List TextEdit) :
    Follows s (s.applyEdits server edits) := by
  have each (encoding : Encoding) (es : List TextEdit) (t : Session) :
      Follows t (es.foldl (applyEdit encoding) t) := by
    induction es generalizing t with
    | nil => exact refl t
    | cons e es ih => exact (edit t .server _ _ _).trans (ih _)
  exact each _ _ s

theorem expand (s : Session) (e : Expansion) : Follows s (s.expand e).1 := by
  unfold Session.expand
  split
  · split
    · exact of_unedited (Tells.trans (.one rfl rfl) (.one rfl rfl)) rfl
    · exact (report s _).trans (edit ..)
  · exact edit ..

theorem concludeAccept (s : Session) (payload : Payload) (resolved : Option Command)
    (expanded : Bool) : Follows s (s.concludeAccept payload resolved expanded) := by
  unfold Session.concludeAccept
  extract_lets t u
  have hu : Follows t u := of_unedited (.one rfl rfl) rfl
  have hs : Follows s u := (log s ..).trans hu
  split
  · exact hs.trans (executeCommand ..)
  · exact hs

theorem finishAccept (s : Session) (payload : Payload) (resolved : Option Command)
    (expansion : Option Expansion) : Follows s (s.finishAccept payload resolved expansion) := by
  cases expansion with
  | none => exact concludeAccept s payload resolved false
  | some e => exact (expand s e).trans (concludeAccept ..)

theorem supersedeResolve (s : Session) : Follows s s.supersedeResolve :=
  of_unedited (Tells.supersedeResolve s).unedited (by rw [supersedeResolve_frame])

theorem prepareExpansion (s : Session) (expand : Bool) (m : Match) :
    Follows s (s.prepareExpansion expand m).1 := by
  unfold Session.prepareExpansion
  split
  · exact refl s
  · split
    · exact edit ..
    · exact report s _

theorem supplyEdits (s : Session) (m : Match) (expansion : Option Expansion) :
    Follows s (s.supplyEdits m expansion) := by
  unfold Session.supplyEdits
  split
  · exact (applyEdits s _ _).trans (finishAccept ..)
  · split
    · exact of_unedited (Tells.sendResolve s m.payload expansion).unedited (s.sendResolve_buffer ..)
    · exact finishAccept ..

theorem acceptMatch (s : Session) (m : Match) : Follows s (s.acceptMatch m) :=
  ((reset s .accepted).trans (supersedeResolve _)).trans
    ((prepareExpansion _ s.expandSnippet m).trans (supplyEdits ..))

theorem completeDone (s : Session) (selected : Option Match) :
    Follows s (s.completeDone selected) := by
  unfold Session.completeDone
  split
  · exact of_unedited (.one rfl rfl) rfl
  · split
    · exact reset s .dismissed
    · exact acceptMatch s _

theorem applyResolved (s : Session) (p : PendingResolve) (reply : Reply) :
    Follows s (s.applyResolved p reply).1 := by
  unfold Session.applyResolved
  dsimp only
  split
  · split
    · dsimp only
      split
      · exact log s ..
      · split
        · exact applyEdits s _ _
        · exact log s ..
    · exact report s _
  · split
    · exact refl s
    · exact report s _

theorem takeResolved (s : Session) (reply : Reply) : Follows s (s.takeResolved reply) := by
  unfold Session.takeResolved
  split
  next p _ =>
    have ht : Follows s { s with resolve := none } := of_unedited (.of_eq rfl) rfl
    exact (ht.trans (applyResolved _ p reply)).trans (finishAccept ..)
  · exact refl s

theorem of_roundChange (h : RoundChange s t) : Follows s t := by
  cases h with
  | attach server capabilities options =>
    exact of_unedited (attach_tells s server capabilities options).unedited (by rw [attach_frame])
  | detach server =>
    have ht : Unedited s (s.detach server) := by
      unfold Session.detach
      split
      · extract_lets u
        have hu : Unedited s u := .one rfl rfl
        have hv := (Tells.detachFromSignature u server).mono fun _ => Helping.not_edit
        have hw := (Tells.detachFromRound (u.detachFromSignature server) server).mono
          fun _ => Reporting.not_edit
        exact (hu.trans hv).trans hw
      · exact .of_eq rfl
    exact of_unedited ht (by rw [detach_frame])
  | takeCompletion place number server id reply =>
    have ht := Tells.takeCompletion { s with queue := s.queue.eraseIdx place } id server reply
    exact of_unedited (ht.mono fun _ => Reporting.not_edit) (by rw [takeCompletion_frame])

theorem handle (s : Session) (live : Bool) (m : Message) : Follows s (s.handle live m) := by
  unfold Session.handle
  split
  next kind _ =>
    split
    · cases kind with
      | completion =>
        apply of_quiet (completionTimerElapsed_quiet s)
        unfold completionTimerElapsed
        split
        · exact startRound_buffer s.dropCompletionTimer _
        · rfl
      | signatureHelp =>
        apply of_quiet (signatureTimerElapsed_quiet s)
        unfold signatureTimerElapsed
        split
        · exact sendSignatureHelp_buffer s.dropSignatureTimer _
        · rfl
    · exact log s ..
  next n server purpose reply =>
    cases purpose with
    | completion id =>
      dsimp only
      split
      · have ht := Tells.takeCompletion s id server reply
        exact of_unedited (ht.mono fun _ => Reporting.not_edit) (by rw [takeCompletion_frame])
      · exact log s ..
    | signatureHelp =>
      dsimp only
      split
      · have ht := Tells.takeSignature s server reply
        exact of_unedited (ht.mono fun _ => Helping.not_edit) (by rw [takeSignature_frame])
      · exact refl s
    | resolve =>
      dsimp only
      split
      · exact takeResolved s reply
      · exact refl s
    | command name =>
      dsimp only [takeCommandReply]
      split
      · exact refl s
      · exact report s _

theorem deliver (s : Session) (place : Nat) : Follows s (s.deliver place) := by
  cases hm : s.queue[place]? with
  | none =>
    rw [Session.deliver, hm]
    exact refl s
  | some m =>
    have hrest : Follows s { s with queue := s.queue.eraseIdx place } :=
      of_unedited (.of_eq rfl) rfl
    rw [deliver_eq hm]
    exact hrest.trans (handle _ _ m)

theorem perform (s : Session) (o : DirectOperation) (ho : ∀ cursor, o.1 ≠ .setCursor cursor) :
    Follows s (s.apply o).1 := by
  obtain ⟨o, hd⟩ := o
  cases o with
  | setCursor cursor => exact absurd rfl (ho cursor)
  | insertText text => exact edit s .user s.buffer.cursor s.buffer.cursor text
  | typeChar c =>
    have ht : Follows s (s.insertText [c]) := edit s .user s.buffer.cursor s.buffer.cursor [c]
    exact ht.trans (charInserted _ c)
  | backspace =>
    change Follows s s.backspace
    unfold Session.backspace
    extract_lets line column
    split
    · exact refl s
    · exact edit ..
  | setInserting => exact of_buffer (.still (.of_eq rfl) rfl) rfl
  | completeDone selection => exact completeDone s (s.selected? selection)
  | attach server capabilities options => exact of_roundChange (.attach s server capabilities options)
  | detach server => exact of_roundChange (.detach s server)
  | charInserted c => exact charInserted s c
  | textDeleted => exact of_quiet (textDeleted_quiet s) s.textDeleted_buffer
  | cursorMoved => exact of_quiet (cursorMoved_quiet s) s.cursorMoved_buffer
  | insertLeave => exact reset s .insertLeave
  | triggerCompletion =>
    exact of_quiet (triggerCompletion_quiet s) (startRound_buffer s.dropCompletionTimer .manual)
  | triggerSignatureHelp =>
    exact of_quiet (triggerSignatureHelp_quiet s) s.triggerSignatureHelp_buffer
  | acceptPending =>
    change Follows s s.acceptPending.1
    unfold Session.acceptPending
    split
    · exact of_unedited (.one rfl rfl) rfl
    · exact refl s
  | registerCommand server command reaction =>
    have hc := Change.registerCommand s server command reaction
    have hb : (s.registerCommand server command reaction).1.buffer = s.buffer := by
      rw [registerCommand_frame]
    exact of_quiet hc.quiet hb
  | respond target reply =>
    change Follows s (s.respond target reply).1
    unfold Session.respond
    split
    · exact of_unedited (.of_eq (by rw [answer_frame])) (by rw [answer_frame])
    · exact refl s
  | drain => contradiction
  | advance => contradiction
  | next => contradiction
  | _ => exact of_unedited (.of_eq rfl) rfl

theorem act (s : Session) (a : Action) (ha : a.setsCursor? = none) : Follows s (s.act a) := by
  cases a with
  | deliver place => exact deliver s place
  | perform o =>
    apply perform s o
    rintro cursor ho
    obtain ⟨_, _⟩ := o
    cases ho
    cases ha

theorem rewrites (h : Follows s t) : Rewrites s t := by
  obtain ⟨obs, ht, hb⟩ := h
  exact ⟨obs, ht, by rw [hb]⟩

/-- Where the cursor comes from one state on is where it comes from an earlier one on. -/
theorem carry (h : Follows s t) {obs : List Observation} (ht : t.trace = s.trace ++ obs)
    (more : List Observation) : t.buffer.carry t.buffer.cursor more =
      s.buffer.carry s.buffer.cursor (obs ++ more) := by
  obtain ⟨told, htold, hb⟩ := h
  obtain rfl := List.append_cancel_left (htold.symm.trans ht)
  have hcursor : t.buffer.cursor = s.buffer.carry s.buffer.cursor told := by
    rw [hb]
    rfl
  rw [Buffer.carry_append, ← hcursor, hb, Buffer.carry_with (s.buffer.replay told)]

end Follows

/-- In every run in which the editor does not move the cursor, it moves with the text. -/
theorem after_follows (s : Session) (actions : List Action)
    (h : ∀ a ∈ actions, a.setsCursor? = none) : Follows s (s.after actions) := by
  induction actions generalizing s with
  | nil => exact .refl s
  | cons a actions ih =>
    obtain ⟨ha, hrest⟩ := List.forall_mem_cons.mp h
    exact (Follows.act s a ha).trans (ih (s.act a) hrest)

/-- In every run, the text is what the edits that are told have made of it. -/
theorem after_rewrites (s : Session) (actions : List Action) : Rewrites s (s.after actions) := by
  induction actions generalizing s with
  | nil => exact .still (.of_eq rfl) rfl
  | cons a actions ih =>
    have ha : Rewrites s (s.act a) := by
      cases hc : a.setsCursor? with
      | none => exact (Follows.act s a hc).rewrites
      | some cursor =>
        unfold Action.setsCursor? at hc
        split at hc
        · exact .still (.of_eq rfl) rfl
        · cases hc
    exact ha.trans (ih (s.act a))

end Session
end Autocomplete

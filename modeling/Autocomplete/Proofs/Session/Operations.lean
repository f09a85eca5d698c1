import Autocomplete.Proofs.Session.Dispatch

/-! What operations tell by themselves. While the user types, results are asked for and given up, and
that is routine; what the editor does, and what it says to the session, is ordinary at most. -/
namespace Autocomplete.Session
open Observation

theorem scheduleSubsequent_tells (s : Session) (trigger : Trigger) :
    Tells Routine s (s.scheduleSubsequent trigger) := by
  unfold scheduleSubsequent
  extract_lets window elapsed wait t
  have ht : Tells Routine s t := .of_eq rfl
  split
  · exact ht.trans (startRound_tells t trigger)
  · exact ht.trans (.one rfl (.log _))

theorem scheduleLeading_tells (s : Session) (c : Char) : Tells Routine s (s.scheduleLeading c) := by
  unfold scheduleLeading
  split
  · exact .of_eq rfl
  · split <;> exact .one rfl (.log _)

theorem refreshVisible_tells (s : Session) : Tells Routine s s.refreshVisible := by
  unfold refreshVisible
  split
  · exact scheduleSubsequent_tells ..
  · split
    · exact scheduleSubsequent_tells ..
    · exact .of_eq rfl

theorem scheduleSignatureHelp_tells (s : Session) (c : Char) :
    Tells Routine s (s.scheduleSignatureHelp c) := by
  unfold scheduleSignatureHelp
  split
  · split
    · exact .one rfl (.log _)
    · exact .of_eq rfl
  · exact .of_eq rfl

theorem charInserted_tells (s : Session) (c : Char) : Tells Routine s (s.charInserted c) := by
  have hs : Tells Routine s (if s.config.signatureHelp then s.scheduleSignatureHelp c else s) := by
    split
    · exact scheduleSignatureHelp_tells s c
    · exact .of_eq rfl
  unfold charInserted
  split
  · exact .of_eq rfl
  · extract_lets t
    split
    · exact hs.trans (refreshVisible_tells t)
    · exact hs.trans (scheduleLeading_tells t c)

theorem textDeleted_tells (s : Session) : Tells Routine s s.textDeleted := by
  unfold textDeleted
  split
  · exact .of_eq rfl
  · extract_lets cursor qualifies
    split
    · exact .one rfl (.log _)
    · exact .of_eq rfl

theorem cursorMoved_tells (s : Session) : Tells Routine s s.cursorMoved := by
  unfold cursorMoved
  split
  · split <;> exact .of_eq rfl
  · exact .of_eq rfl

theorem triggerCompletion_tells (s : Session) : Tells Routine s s.triggerCompletion := by
  have hd : Tells Routine s s.dropCompletionTimer := .of_eq rfl
  exact hd.trans (startRound_tells _ .manual)

theorem timerElapsed_tells (s : Session) (kind : TimerKind) :
    Tells Routine s
      (match kind with
        | .completion => s.completionTimerElapsed
        | .signatureHelp => s.signatureTimerElapsed) := by
  cases kind with
  | completion =>
    dsimp only
    unfold completionTimerElapsed
    split
    next scheduled _ =>
      have hd : Tells Routine s s.dropCompletionTimer := .of_eq rfl
      exact hd.trans (startRound_tells _ scheduled.trigger)
    next => exact .of_eq rfl
  | signatureHelp =>
    dsimp only
    unfold signatureTimerElapsed
    split
    next scheduled _ =>
      have hd : Tells Routine s s.dropSignatureTimer := .of_eq rfl
      exact (hd.trans (.cancelSignatureRound _)).trans
        (.openSignatureRound _ (some scheduled.character))
    next => exact .of_eq rfl

/-- Only the detaching of a server and the acceptance of an item may bring problems to light. -/
theorem perform_tells (s : Session) (o : DirectOperation)
    (hd : ∀ server, o.1 ≠ .detach server) (hc : ∀ selection, o.1 ≠ .completeDone selection) :
    Tells (fun o => o.Ordinary ∧ o.notice? = none) s (s.apply o).1 := by
  have routine {t : Session} (h : Tells Routine s t) :
      Tells (fun o => o.Ordinary ∧ o.notice? = none) s t :=
    h.mono fun _ ho => ⟨ho.ordinary, ho.notice?_eq_none⟩
  have typed {cause : EditCause} {start stop : Cursor} {text : List Char} :
      Tells (fun o => o.Ordinary ∧ o.notice? = none) s (s.edit cause start stop text) :=
    .one rfl ⟨.preliminary (.edit _ _ _ _ fun _ => trivial), rfl⟩
  obtain ⟨o, ho⟩ := o
  cases o with
  | attach server capabilities options => exact routine (attach_tells s server capabilities options)
  | detach server => exact absurd rfl (hd server)
  | insertText => exact typed
  | backspace =>
    change Tells _ s s.backspace
    unfold backspace
    extract_lets line column
    split
    · exact .of_eq rfl
    · exact typed
  | typeChar c =>
    have hr := charInserted_tells (s.insertText [c]) c
    exact typed.trans (hr.mono fun _ ho => ⟨ho.ordinary, ho.notice?_eq_none⟩)
  | charInserted c => exact routine (charInserted_tells s c)
  | textDeleted => exact routine s.textDeleted_tells
  | cursorMoved => exact routine s.cursorMoved_tells
  | insertLeave => exact routine (Tells.reset s .insertLeave)
  | triggerCompletion => exact routine s.triggerCompletion_tells
  | triggerSignatureHelp => exact routine s.triggerSignatureHelp_tells
  | acceptPending =>
    change Tells _ s s.acceptPending.1
    unfold acceptPending
    split
    · exact .one rfl ⟨.confirm, rfl⟩
    · exact .of_eq rfl
  | completeDone selection => exact absurd rfl (hc selection)
  | registerCommand server command reaction =>
    have hr := Adds.registerCommand s server command reaction
    exact routine (hr.routine (by simp) (by simp))
  | respond target reply =>
    change Tells _ s (s.respond target reply).1
    unfold respond
    split
    · exact .of_eq (by rw [answer_frame])
    · exact .of_eq rfl
  | drain => contradiction
  | advance => contradiction
  | next => contradiction
  | _ => exact .of_eq rfl

end Autocomplete.Session

import Autocomplete.Proofs.Session.Action
import Autocomplete.Proofs.Session.Frame
import Mathlib.Logic.Relation

/-! What can happen to a session, one thing at a time. In a `RoundChange` a server comes or goes or a
round may end with its results, a `TextChange` is about an accepted item and what was taken out of the
buffer for its snippet, and a `Change` is about nothing of that. Every action is made up of these, so
that what all three keep holds in all runs. -/
namespace Autocomplete

/-- Calls that only tell the editor something. -/
def Call.isPlain : Call → Bool
  | .confirm => true
  | .command .. => true
  | _ => false

/-- Edits that take nothing out for a snippet and put nothing back. -/
def EditCause.isPlain : EditCause → Bool
  | .user => true
  | .server => true
  | _ => false

namespace Session
open Relation

inductive Change : Session → Session → Prop where
  | logAll (s : Session) (records : List LogRecord) : Change s (s.logAll records)
  | report (s : Session) (message : String) : Change s (s.report .warning message)
  | tell (s : Session) (c : Call) (hc : c.isPlain = true) : Change s (s.call c)
  | edit (s : Session) (cause : EditCause) (start stop : Cursor) (text : List Char)
      (hc : cause.isPlain = true) : Change s (s.edit cause start stop text)
  /-- The editor changes what is its own. -/
  | editor (s : Session) (cursor : Cursor) (inserting visible : Bool)
      (snippets : List SnippetEngine) (globals : Registry)
      (automatic : List (ServerId × Method × Reply)) :
      Change s { s with
        buffer := { s.buffer with cursor, inserting }
        popup := { s.popup with visible }
        snippets, globals, automatic }
  | armCompletion (s : Session) (delay : Duration) (trigger : Trigger) (phase : Phase) :
      Change s (s.armCompletion delay trigger phase)
  | armSignatureHelp (s : Session) (delay : Duration) (c : Char) :
      Change s (s.armSignatureHelp delay c)
  | dropCompletionTimer (s : Session) : Change s s.dropCompletionTimer
  | dropSignatureTimer (s : Session) : Change s s.dropSignatureTimer
  | elapse (s : Session) (ms : Nat) : Change s (s.elapse ms)
  | forgetTracked (s : Session) : Change s { s with tracked := none }
  | clearFlags (s : Session) :
      Change s { s with lastRequest := none, isIncomplete := false, suppressDone := false,
                        expandSnippet := false }
  | swallowDone (s : Session) : Change s { s with suppressDone := false }
  | wantExpansion (s : Session) : Change s { s with expandSnippet := true }
  | registerCommand (s : Session) (server : ServerId) (command : String)
      (reaction : Reaction) : Change s (s.registerCommand server command reaction).1
  | giveUpRound (s : Session) (reason : CancelReason) : Change s (s.giveUpRound reason)
  | openRound (s : Session) (trigger : Trigger) (hs : s.round = none) :
      Change s (s.openRound trigger)
  | cancelSignatureRound (s : Session) : Change s s.cancelSignatureRound
  | openSignatureRound (s : Session) (trigger : Option Char) (hs : s.signatureRound = none) :
      Change s (s.openSignatureRound trigger)
  | takeSignature (s : Session) (place number : Nat) (server : ServerId) (reply : Reply)
      (hm : s.queue[place]? = some (.reply number server .signatureHelp reply))
      (live : s.isLive (.reply number server .signatureHelp reply) = true) :
      Change s ({ s with queue := s.queue.eraseIdx place }.takeSignature server reply)
  | sendCommand (s : Session) (server : ServerId) (name : String) (params : Json) :
      Change s (s.send server (.command name) params).1
  | answer (s : Session) (number : Nat) (reply : Reply) : Change s (s.answer number reply)
  | discard (s : Session) (place : Nat) : Change s { s with queue := s.queue.eraseIdx place }

inductive RoundChange : Session → Session → Prop where
  | attach (s : Session) (server : ServerId) (capabilities : Capabilities)
      (options : AttachOptions) : RoundChange s (s.attach server capabilities options)
  | detach (s : Session) (server : ServerId) : RoundChange s (s.detach server)
  | takeCompletion (s : Session) (place number : Nat) (server : ServerId) (id : RequestId)
      (reply : Reply) (hm : s.queue[place]? = some (.reply number server (.completion id) reply))
      (live : s.isLive (.reply number server (.completion id) reply) = true) :
      RoundChange s ({ s with queue := s.queue.eraseIdx place }.takeCompletion id server reply)

inductive TextChange : Session → Session → Prop where
  | supersedeResolve (s : Session) : TextChange s s.supersedeResolve
  | removeInsertedWord (s : Session) (word template : String) :
      TextChange s (s.removeInsertedWord word template).1
  | sendResolve (s : Session) (payload : Payload) (expansion : Option Expansion)
      (hs : s.resolve = none) (ha : s.bindings.contains payload.server = true) :
      TextChange s (s.sendResolve payload expansion)
  | takeUp (s : Session) (place number : Nat) (server : ServerId) (reply : Reply)
      (hm : s.queue[place]? = some (.reply number server .resolve reply))
      (live : s.isLive (.reply number server .resolve reply) = true) :
      TextChange s { s with queue := s.queue.eraseIdx place, resolve := none }
  | conclude (s : Session) (payload : Payload) (expanded : Bool) :
      TextChange s (s.emit (.itemAccepted payload.server payload.item.label expanded))
  | expand (s : Session) (e : Expansion) : TextChange s (s.expand e).1

/-- Nothing happens to an accepted item, and no round ends with its results. -/
abbrev Quiet : Session → Session → Prop := ReflTransGen Change

/-- No server comes or goes, and no round ends with its results. -/
abbrev Evolves : Session → Session → Prop := ReflTransGen fun s t => Change s t ∨ TextChange s t

theorem Quiet.evolves {s t : Session} (h : Quiet s t) : Evolves s t := by
  induction h with
  | refl => exact .refl
  | tail _ hc ih => exact ih.tail (.inl hc)

theorem TextChange.evolves {s t : Session} (h : TextChange s t) : Evolves s t := .single (.inr h)

theorem Change.quiet {s t : Session} (h : Change s t) : Quiet s t := .single h

theorem Change.log (s : Session) (level : Level) (area message : String)
    (fields : List (String × Json)) : Change s (s.log level area message fields) :=
  .logAll s [⟨level, "quill_completion::" ++ area, message, fields⟩]

theorem startRound_quiet (s : Session) (trigger : Trigger) : Quiet s (s.startRound trigger) := by
  have hn := s.giveUpRound_round .newRequest
  exact (Change.giveUpRound s .newRequest).quiet.tail (.openRound _ trigger hn)

theorem triggerCompletion_quiet (s : Session) : Quiet s s.triggerCompletion :=
  (Change.dropCompletionTimer s).quiet.trans (startRound_quiet _ _)

theorem scheduleSubsequent_quiet (s : Session) (trigger : Trigger) :
    Quiet s (s.scheduleSubsequent trigger) := by
  have hd := (Change.dropCompletionTimer s).quiet
  unfold scheduleSubsequent
  extract_lets window elapsed wait t
  split
  · exact hd.trans (startRound_quiet _ _)
  · exact hd.tail (.armCompletion _ _ _ _)

theorem scheduleLeading_quiet (s : Session) (c : Char) : Quiet s (s.scheduleLeading c) := by
  unfold scheduleLeading
  split
  · exact .refl
  · split
    · exact (Change.log ..).quiet
    · exact (Change.armCompletion ..).quiet

theorem refreshVisible_quiet (s : Session) : Quiet s s.refreshVisible := by
  unfold refreshVisible
  split
  · exact scheduleSubsequent_quiet _ _
  · split
    · exact scheduleSubsequent_quiet _ _
    · exact .refl

theorem sendSignatureHelp_quiet (s : Session) (trigger : Option Char) :
    Quiet s (s.sendSignatureHelp trigger) := by
  have hn : s.cancelSignatureRound.signatureRound = none := by rw [cancelSignatureRound_frame]
  exact (Change.cancelSignatureRound s).quiet.tail (.openSignatureRound _ trigger hn)

theorem triggerSignatureHelp_quiet (s : Session) : Quiet s s.triggerSignatureHelp := by
  unfold triggerSignatureHelp
  split
  · exact (Change.dropSignatureTimer s).quiet.trans (sendSignatureHelp_quiet _ _)
  · exact .refl

theorem scheduleSignatureHelp_quiet (s : Session) (c : Char) :
    Quiet s (s.scheduleSignatureHelp c) := by
  unfold scheduleSignatureHelp
  split
  · split
    · exact (Change.armSignatureHelp ..).quiet
    · exact .refl
  · exact .refl

theorem charInserted_quiet (s : Session) (c : Char) : Quiet s (s.charInserted c) := by
  have hs : Quiet s (if s.config.signatureHelp then s.scheduleSignatureHelp c else s) := by
    split
    · exact scheduleSignatureHelp_quiet _ _
    · exact .refl
  unfold charInserted
  split
  · exact .refl
  · extract_lets t
    split
    · exact hs.trans (refreshVisible_quiet _)
    · exact hs.trans (scheduleLeading_quiet _ _)

theorem textDeleted_quiet (s : Session) : Quiet s s.textDeleted := by
  unfold textDeleted
  split
  · exact .refl
  · extract_lets cursor qualifies
    split
    · exact (Change.dropCompletionTimer s).quiet.tail (.armCompletion ..)
    · exact (Change.forgetTracked s).quiet

theorem cursorMoved_quiet (s : Session) : Quiet s s.cursorMoved := by
  unfold cursorMoved
  split
  · split
    · exact (Change.forgetTracked s).quiet
    · exact .refl
  · exact .refl

theorem reset_quiet (s : Session) (reason : CancelReason) : Quiet s (s.reset reason) :=
  ((((Change.dropCompletionTimer s).quiet.tail (.dropSignatureTimer _)).tail
    (.cancelSignatureRound _)).tail (.giveUpRound _ reason)).tail (.clearFlags _)

theorem applyEdits_quiet (s : Session) (server : ServerId) (edits : List TextEdit) :
    Quiet s (s.applyEdits server edits) := by
  have hl : ∀ (es : List TextEdit) (enc : Encoding) (t : Session),
      Quiet t (es.foldl (applyEdit enc) t) := by
    intro es enc
    induction es with
    | nil => exact fun _ => .refl
    | cons e es ih => exact fun t => (Change.edit t .server _ _ _ rfl).quiet.trans (ih _)
  exact hl _ _ s

theorem followUp_quiet (s : Session) (f : FollowUp) : Quiet s (s.followUp f) := by
  have hl := (Change.log s .debug "engine" "Running command follow-up"
    [("follow_up", .str f.display)]).quiet
  cases f with
  | triggerCompletion => exact hl.trans (triggerCompletion_quiet _)
  | triggerSignatureHelp => exact hl.trans (triggerSignatureHelp_quiet _)

theorem runHandler_quiet (s : Session) (server : ServerId) (command : Command)
    (handler : Handler) : Quiet s (s.runHandler server command handler) := by
  unfold runHandler
  extract_lets t u
  have ht : Quiet s t := (Change.log s ..).quiet
  have hu : Quiet s u := by
    dsimp only [u]
    split
    next scope _ => exact ht.tail (.tell t (.command scope server command) rfl)
    next => exact ht
  split
  next f _ => exact hu.trans (followUp_quiet u f)
  next => exact hu

theorem executeCommand_quiet (s : Session) (server : ServerId) (command : Command) :
    Quiet s (s.executeCommand server command) := by
  unfold executeCommand
  split
  · exact runHandler_quiet _ _ _ _
  · split
    · exact (Change.log ..).quiet.tail (.sendCommand ..)
    · exact (Change.report ..).quiet

theorem applyResolved_quiet (s : Session) (pending : PendingResolve) (reply : Reply) :
    Quiet s (s.applyResolved pending reply).1 := by
  unfold applyResolved
  dsimp only
  split
  · split
    · dsimp only
      split
      · exact (Change.log ..).quiet
      · split
        · exact applyEdits_quiet _ _ _
        · exact (Change.log ..).quiet
    · exact (Change.report ..).quiet
  · split
    · exact .refl
    · exact (Change.report ..).quiet

theorem concludeAccept_evolves (s : Session) (payload : Payload) (resolved : Option Command)
    (expanded : Bool) : Evolves s (s.concludeAccept payload resolved expanded) := by
  have h := (Change.log s .info "accept" "Accepted completion item"
    [("server", .str payload.server.display), ("label", .str payload.item.label),
     ("expanded_snippet", .bool expanded)]).quiet.evolves.trans
    (TextChange.conclude _ payload expanded).evolves
  unfold concludeAccept
  dsimp only
  split
  · exact h.trans (executeCommand_quiet _ _ _).evolves
  · exact h

theorem finishAccept_evolves (s : Session) (payload : Payload) (resolved : Option Command)
    (expansion : Option Expansion) : Evolves s (s.finishAccept payload resolved expansion) := by
  cases expansion with
  | none => exact concludeAccept_evolves s _ _ _
  | some e => exact (TextChange.expand s e).evolves.trans (concludeAccept_evolves _ _ _ _)

theorem prepareExpansion_evolves (s : Session) (expand : Bool) (m : Match) :
    Evolves s (s.prepareExpansion expand m).1 := by
  unfold prepareExpansion
  split
  · exact .refl
  · split
    · exact (TextChange.removeInsertedWord ..).evolves
    · exact (Change.report ..).quiet.evolves

theorem supplyEdits_evolves (s : Session) (m : Match) (expansion : Option Expansion)
    (hs : s.resolve = none) : Evolves s (s.supplyEdits m expansion) := by
  unfold supplyEdits
  split
  · exact (applyEdits_quiet _ _ _).evolves.trans (finishAccept_evolves _ _ _ _)
  · split
    next hr =>
      have ha : s.bindings.contains m.server = true := by
        rw [Table.contains]
        cases hb : s.bindings.find? m.server with
        | none => simp [hb] at hr
        | some b => rfl
      exact (TextChange.sendResolve s m.payload expansion hs ha).evolves
    · exact finishAccept_evolves _ _ _ _

theorem acceptMatch_evolves (s : Session) (m : Match) : Evolves s (s.acceptMatch m) := by
  have hs := (reset_quiet s .accepted).evolves.trans (TextChange.supersedeResolve _).evolves
  refine (hs.trans (prepareExpansion_evolves _ s.expandSnippet m)).trans (supplyEdits_evolves _ _ _ ?_)
  rw [prepareExpansion_frame, supersedeResolve_frame]

theorem completeDone_evolves (s : Session) (selected : Option Match) :
    Evolves s (s.completeDone selected) := by
  unfold completeDone
  split
  · exact Quiet.evolves ((Change.swallowDone s).quiet.tail (.log ..))
  · split
    · exact (reset_quiet _ _).evolves
    · exact acceptMatch_evolves _ _

theorem takeResolved_evolves {s : Session} {place number : Nat} {server : ServerId} {reply : Reply}
    (hm : s.queue[place]? = some (.reply number server .resolve reply))
    (live : s.isLive (.reply number server .resolve reply) = true) :
    Evolves s ({ s with queue := s.queue.eraseIdx place }.takeResolved reply) := by
  unfold takeResolved
  split
  next pending _ =>
    have ht := (TextChange.takeUp s place number server reply hm live).evolves
    exact (ht.trans (applyResolved_quiet _ pending reply).evolves).trans
      (finishAccept_evolves _ _ _ _)
  · exact (Change.discard s place).quiet.evolves

theorem completionTimerElapsed_quiet (s : Session) : Quiet s s.completionTimerElapsed := by
  unfold completionTimerElapsed
  split
  · exact (Change.dropCompletionTimer s).quiet.trans (startRound_quiet _ _)
  · exact .refl

theorem signatureTimerElapsed_quiet (s : Session) : Quiet s s.signatureTimerElapsed := by
  unfold signatureTimerElapsed
  split
  · exact (Change.dropSignatureTimer s).quiet.trans (sendSignatureHelp_quiet _ _)
  · exact .refl

/-- Whether a message has nothing to do with rounds and accepted items. -/
def isQuiet : Message → Bool
  | .reply _ _ (.completion _) _ => false
  | .reply _ _ .signatureHelp _ => false
  | .reply _ _ .resolve _ => false
  | _ => true

theorem handle_quiet (s : Session) (live : Bool) (m : Message)
    (hm : isQuiet m = true ∨ live = false) : Quiet s (s.handle live m) := by
  unfold handle
  split
  next kind _ =>
    split
    · cases kind with
      | completion => exact completionTimerElapsed_quiet s
      | signatureHelp => exact signatureTimerElapsed_quiet s
    · exact (Change.log ..).quiet
  next number server purpose reply =>
    cases purpose with
    | completion id =>
      have hl : live = false := by simpa [isQuiet] using hm
      subst hl
      exact (Change.log ..).quiet
    | signatureHelp =>
      have hl : live = false := by simpa [isQuiet] using hm
      subst hl
      exact .refl
    | resolve =>
      have hl : live = false := by simpa [isQuiet] using hm
      subst hl
      exact .refl
    | command name =>
      dsimp only
      unfold takeCommandReply
      split
      · exact .refl
      · exact (Change.report ..).quiet

theorem deliver_cases (s : Session) (place : Nat) :
    Quiet s (s.deliver place) ∨
      (∃ number server id reply,
        s.queue[place]? = some (.reply number server (.completion id) reply) ∧
        s.isLive (.reply number server (.completion id) reply) = true ∧
        s.deliver place = { s with queue := s.queue.eraseIdx place }.takeCompletion id server reply) ∨
      ∃ number server reply, s.queue[place]? = some (.reply number server .resolve reply) ∧
        s.isLive (.reply number server .resolve reply) = true ∧
        s.deliver place = { s with queue := s.queue.eraseIdx place }.takeResolved reply := by
  unfold deliver
  split
  next m hm =>
    have hd := (Change.discard s place).quiet
    extract_lets rest
    have hl : rest.isLive m = s.isLive m := by cases m <;> rfl
    by_cases hc : isQuiet m = true ∨ s.isLive m = false
    · exact .inl (hd.trans (handle_quiet _ _ _ (hl ▸ hc)))
    · simp only [not_or, Bool.not_eq_true, Bool.not_eq_false] at hc
      obtain ⟨hr, live⟩ := hc
      match m, hr with
      | .reply number server (.completion id) reply, _ =>
        exact .inr (.inl ⟨number, server, id, reply, hm, live,
          by simp only [handle, hl, live, if_true, rest]⟩)
      | .reply number server .signatureHelp reply, _ =>
        have ht := (Change.takeSignature s place number server reply hm live).quiet
        exact .inl (by simpa only [handle, hl, live, if_true] using ht)
      | .reply number server .resolve reply, _ =>
        exact .inr (.inr ⟨number, server, reply, hm, live,
          by simp only [handle, hl, live, if_true, rest]⟩)
  · exact .inl .refl

/-- What the editor does by itself. -/
theorem editor_quiet (s : Session) (cursor : Cursor) (inserting visible : Bool)
    (snippets : List SnippetEngine) (globals : Registry)
    (automatic : List (ServerId × Method × Reply)) :
    Quiet s { s with
      buffer := { s.buffer with cursor, inserting }
      popup := { s.popup with visible }
      snippets, globals, automatic } :=
  (Change.editor s cursor inserting visible snippets globals automatic).quiet

theorem perform_cases (s : Session) (o : DirectOperation) :
    Quiet s (s.apply o).1 ∨
      (∃ server capabilities options, o.1 = .attach server capabilities options) ∨
      (∃ server, o.1 = .detach server) ∨ ∃ selection, o.1 = .completeDone selection := by
  obtain ⟨o, ho⟩ := o
  cases o with
  | attach => exact .inr (.inl ⟨_, _, _, rfl⟩)
  | detach => exact .inr (.inr (.inl ⟨_, rfl⟩))
  | insertText => exact .inl (Change.edit s .user _ _ _ rfl).quiet
  | backspace =>
    left
    change Quiet s s.backspace
    unfold backspace
    extract_lets line column
    split
    · exact .refl
    · exact (Change.edit s .user _ _ _ rfl).quiet
  | setCursor cursor => exact .inl (editor_quiet s cursor _ _ _ _ _)
  | setInserting inserting => exact .inl (editor_quiet s _ inserting _ _ _ _)
  | setVisible visible => exact .inl (editor_quiet s _ _ visible _ _ _)
  | setAvailable engine available => exact .inl (editor_quiet s _ _ _ _ _ _)
  | typeChar c =>
    have he := (Change.edit s .user s.buffer.cursor s.buffer.cursor [c] rfl).quiet
    exact .inl (he.trans (charInserted_quiet _ c))
  | charInserted c => exact .inl (charInserted_quiet s c)
  | textDeleted => exact .inl (textDeleted_quiet s)
  | cursorMoved => exact .inl (cursorMoved_quiet s)
  | insertLeave => exact .inl (reset_quiet s _)
  | triggerCompletion => exact .inl (triggerCompletion_quiet s)
  | triggerSignatureHelp => exact .inl (triggerSignatureHelp_quiet s)
  | acceptPending =>
    left
    change Quiet s s.acceptPending.1
    unfold acceptPending
    split
    · exact (Change.wantExpansion s).quiet.tail (.tell _ .confirm rfl)
    · exact .refl
  | completeDone => exact .inr (.inr (.inr ⟨_, rfl⟩))
  | registerCommand server command reaction =>
    exact .inl (Change.registerCommand s server command reaction).quiet
  | registerGlobal => exact .inl (editor_quiet s _ _ _ _ _ _)
  | unregisterGlobal => exact .inl (editor_quiet s _ _ _ _ _ _)
  | answerAlways => exact .inl (editor_quiet s _ _ _ _ _ _)
  | respond target reply =>
    left
    change Quiet s (s.respond target reply).1
    unfold respond
    split
    · exact (Change.answer ..).quiet
    · exact .refl
  | elapse ms => exact .inl (Change.elapse s ms).quiet
  | drain => contradiction
  | advance => contradiction
  | next => contradiction

/-- Either no server comes or goes and no round ends with its results, or the action is nothing
else. -/
theorem act_cases (s : Session) (a : Action) : Evolves s (s.act a) ∨ RoundChange s (s.act a) := by
  cases a with
  | perform o =>
    rcases perform_cases s o with h | ⟨server, capabilities, options, h⟩ | ⟨server, h⟩ |
      ⟨selection, h⟩
    · exact .inl (Quiet.evolves h)
    all_goals
      obtain ⟨_, ho⟩ := o
      subst h
    · exact .inr (.attach s server capabilities options)
    · exact .inr (.detach s server)
    · exact .inl (completeDone_evolves s _)
  | deliver place =>
    rcases deliver_cases s place with h | ⟨number, server, id, reply, hm, live, h⟩ |
      ⟨number, server, reply, hm, live, h⟩
    · exact .inl (Quiet.evolves h)
    · right
      change RoundChange s (s.deliver place)
      rw [h]
      exact .takeCompletion s place number server id reply hm live
    · left
      change Evolves s (s.deliver place)
      rw [h]
      exact takeResolved_evolves hm live

theorem Evolves.keeps {P : Session → Prop} (change : ∀ s t, Change s t → P s → P t)
    (textChange : ∀ s t, TextChange s t → P s → P t) {s t : Session} (h : Evolves s t) (hs : P s) :
    P t := by
  induction h with
  | refl => exact hs
  | tail _ hc ih => exact hc.elim (fun hc => change _ _ hc ih) (fun hc => textChange _ _ hc ih)

/-- An invariant of all changes is an invariant of all runs. -/
theorem after_induction {P : Session → Prop} (change : ∀ s t, Change s t → P s → P t)
    (textChange : ∀ s t, TextChange s t → P s → P t)
    (roundChange : ∀ s t, RoundChange s t → P s → P t) {s : Session} (hs : P s)
    (actions : List Action) : P (s.after actions) := by
  induction actions generalizing s with
  | nil => exact hs
  | cons a actions ih =>
    rcases s.act_cases a with h | h
    · exact ih (Evolves.keeps change textChange h hs)
    · exact ih (roundChange _ _ h hs)

end Session
end Autocomplete

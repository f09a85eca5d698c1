import Autocomplete.Proofs.Session.Events
import Autocomplete.Proofs.Session.Timers

/-! What a session does besides typing, deleting and putting everything back. Accepting items, running
commands, signature help and whatever the editor does by itself touch completions in few ways: the
armed timer is dropped, time passes, and a round is given up or asked for by the user. A relation
between states that allows for these holds across all of it. -/
namespace Autocomplete

/-- Whether an operation has to do with completions at most through a command that it runs. -/
def Operation.isIncidental : Operation → Bool
  | .attach .. => false
  | .detach _ => false
  | .typeChar _ => false
  | .charInserted _ => false
  | .textDeleted => false
  | .cursorMoved => false
  | .insertLeave => false
  | .completeDone _ => false
  | _ => true

/-- The round that is published to have started. -/
def Observation.opens? (o : Observation) : Option RequestId := o.event?.bind Event.opens?

namespace Session
open Observation

/-- From one state to the next, no round is published to have started. -/
abbrev Unasked : Session → Session → Prop := Tells (·.opens? = none)

theorem Adds.unasked {kinds : List Kind} {s t : Session} (h : Adds kinds s t)
    (hk : Kind.opened ∉ kinds) : Unasked s t := by
  obtain ⟨obs, ht, ho⟩ := h
  refine ⟨obs, ht, ?_⟩
  intro o hm
  cases o with
  | event e =>
    cases e with
    | requested => exact absurd (ho _ hm) hk
    | _ => rfl
  | _ => rfl

theorem Tacit.unasked {s t : Session} (h : Tacit s t) : Unasked s t := by
  apply h.mono
  intro o ho
  cases o with
  | event e =>
    cases e with
    | requested => cases ho
    | _ => rfl
  | _ => rfl

theorem RoundChange.unasked {s t : Session} (h : RoundChange s t) : Unasked s t :=
  h.adds.unasked (by simp)

/-- What is read off the starts of rounds stays the same. -/
theorem Unasked.filterMap_events {s t : Session} (h : Unasked s t) {β : Type} {f : Event → Option β}
    (hf : ∀ e, e.opens? = none → f e = none) : t.events.filterMap f = s.events.filterMap f := by
  obtain ⟨obs, ht, ho⟩ := h
  have hn : (obs.filterMap event?).filterMap f = [] := by
    apply List.filterMap_eq_nil_iff.mpr
    intro e he
    obtain ⟨o, hm, hoe⟩ := List.mem_filterMap.mp he
    apply hf
    have hno : o.opens? = none := ho o hm
    rwa [opens?, hoe, Option.bind_some] at hno
  rw [events, ht, List.filterMap_append, List.filterMap_append, hn, List.append_nil, events]

structure Incidental (R : Session → Session → Prop) : Prop where
  trans {s t u : Session} : R s t → R t u → R s u
  /-- Nothing happens but to rounds that are under way. -/
  still {s t : Session} : Unasked s t →
    (t.completionTimer, t.lastRequest, t.tracked, t.suppressDone, t.now) =
      (s.completionTimer, s.lastRequest, s.tracked, s.suppressDone, s.now) → R s t
  dropCompletionTimer (s : Session) : R s s.dropCompletionTimer
  openRound (s : Session) : s.completionTimer = none → R s (s.openRound .manual)
  elapse (s : Session) (ms : Nat) : R s (s.elapse ms)

namespace Incidental

variable {R : Session → Session → Prop} (hR : Incidental R)

include hR

theorem refl (s : Session) : R s s := hR.still (.of_eq rfl) rfl

theorem log (s : Session) (level : Level) (area message : String) (fields : List (String × Json)) :
    R s (s.log level area message fields) := hR.still (.one rfl rfl) rfl

theorem report (s : Session) (severity : Severity) (message : String) :
    R s (s.report severity message) := by
  have hf := s.report_frame severity message
  exact hR.still (report_tacit ..).unasked (by rw [hf])

theorem giveUpRound (s : Session) (reason : CancelReason) : R s (s.giveUpRound reason) := by
  have hf := s.giveUpRound_frame reason
  exact hR.still ((Adds.giveUpRound s reason).unasked (by simp)) (by rw [hf])

theorem triggerCompletion (s : Session) : R s s.triggerCompletion := by
  have hd := hR.dropCompletionTimer s
  have hg := hR.giveUpRound s.dropCompletionTimer .newRequest
  have hn : (s.dropCompletionTimer.giveUpRound .newRequest).completionTimer = none := by
    rw [giveUpRound_frame]
    rfl
  exact hR.trans (hR.trans hd hg) (hR.openRound _ hn)

theorem dropSignatureTimer (s : Session) : R s s.dropSignatureTimer := hR.still (.of_eq rfl) rfl

theorem cancelSignatureRound (s : Session) : R s s.cancelSignatureRound := by
  have hf := s.cancelSignatureRound_frame
  exact hR.still ((Adds.cancelSignatureRound s).unasked (by simp)) (by rw [hf])

theorem sendSignatureHelp (s : Session) (trigger : Option Char) :
    R s (s.sendSignatureHelp trigger) := by
  have hf := s.cancelSignatureRound.openSignatureRound_frame trigger
  have ho : R s.cancelSignatureRound (s.cancelSignatureRound.openSignatureRound trigger) :=
    hR.still (openSignatureRound_tacit _ trigger).unasked (by rw [hf])
  exact hR.trans (hR.cancelSignatureRound s) ho

theorem triggerSignatureHelp (s : Session) : R s s.triggerSignatureHelp := by
  unfold Session.triggerSignatureHelp
  split
  · exact hR.trans (hR.dropSignatureTimer s) (hR.sendSignatureHelp _ none)
  · exact hR.refl s

theorem scheduleSignatureHelp (s : Session) (c : Char) : R s (s.scheduleSignatureHelp c) := by
  unfold Session.scheduleSignatureHelp
  split
  · split
    · exact hR.still (.one rfl rfl) rfl
    · exact hR.refl s
  · exact hR.refl s

theorem followUp (s : Session) (f : FollowUp) : R s (s.followUp f) := by
  have hl := hR.log s .debug "engine" "Running command follow-up" [("follow_up", .str f.display)]
  cases f with
  | triggerCompletion => exact hR.trans hl (hR.triggerCompletion _)
  | triggerSignatureHelp => exact hR.trans hl (hR.triggerSignatureHelp _)

theorem runHandler (s : Session) (server : ServerId) (command : Command) (handler : Handler) :
    R s (s.runHandler server command handler) := by
  unfold Session.runHandler
  extract_lets t u
  have ht : R s t := hR.log ..
  have hu : R s u := by
    dsimp only [u]
    split
    · exact hR.trans ht (hR.still (.one rfl rfl) rfl)
    · exact ht
  split
  · exact hR.trans hu (hR.followUp u _)
  · exact hu

theorem executeCommand (s : Session) (server : ServerId) (command : Command) :
    R s (s.executeCommand server command) := by
  unfold Session.executeCommand
  split
  · exact hR.runHandler ..
  · split
    · extract_lets t params
      have ht : R s t := hR.log ..
      have hf := t.send_frame server (.command command.name) params
      exact hR.trans ht (hR.still (.one (by rw [hf]) rfl) (by rw [hf]))
    · exact hR.report ..

theorem concludeAccept (s : Session) (payload : Payload) (resolved : Option Command)
    (expanded : Bool) : R s (s.concludeAccept payload resolved expanded) := by
  unfold Session.concludeAccept
  extract_lets t u
  have ht : R s t := hR.log ..
  have hu : R s u := hR.trans ht (hR.still (.one rfl rfl) rfl)
  split
  · exact hR.trans hu (hR.executeCommand ..)
  · exact hu

theorem finishAccept (s : Session) (payload : Payload) (resolved : Option Command)
    (expansion : Option Expansion) : R s (s.finishAccept payload resolved expansion) := by
  cases expansion with
  | none => exact hR.concludeAccept s _ _ _
  | some e =>
    have hf := s.expand_frame e
    have he : R s (s.expand e).1 :=
      hR.still (TextChange.expand s e).tacit.unasked (by rw [hf])
    exact hR.trans he (hR.concludeAccept _ _ _ _)

theorem applyEdits (s : Session) (server : ServerId) (edits : List TextEdit) :
    R s (s.applyEdits server edits) := by
  have each (encoding : Encoding) (es : List TextEdit) (t : Session) :
      R t (es.foldl (applyEdit encoding) t) := by
    induction es generalizing t with
    | nil => exact hR.refl t
    | cons e es ih =>
      have ht : R t (applyEdit encoding t e) := hR.still (.one rfl rfl) rfl
      exact hR.trans ht (ih _)
  exact each _ _ s

theorem supersedeResolve (s : Session) : R s s.supersedeResolve := by
  have hf := s.supersedeResolve_frame
  exact hR.still (TextChange.supersedeResolve s).tacit.unasked (by rw [hf])

theorem prepareExpansion (s : Session) (expand : Bool) (m : Match) :
    R s (s.prepareExpansion expand m).1 := by
  unfold Session.prepareExpansion
  split
  · exact hR.refl s
  · split
    · exact hR.still (.one rfl rfl) rfl
    · exact hR.report ..

theorem sendResolve (s : Session) (payload : Payload) (expansion : Option Expansion) :
    R s (s.sendResolve payload expansion) := by
  have hf := s.send_frame payload.server .resolve payload.item.encode
  have hs : R s (s.send payload.server .resolve payload.item.encode).1 :=
    hR.still (.one (by rw [hf]) rfl) (by rw [hf])
  unfold Session.sendResolve
  generalize s.send payload.server .resolve payload.item.encode = sent at hs ⊢
  exact hR.trans hs (hR.still (.one rfl rfl) rfl)

theorem supplyEdits (s : Session) (m : Match) (expansion : Option Expansion) :
    R s (s.supplyEdits m expansion) := by
  unfold Session.supplyEdits
  split
  · exact hR.trans (hR.applyEdits ..) (hR.finishAccept ..)
  · split
    · exact hR.sendResolve ..
    · exact hR.finishAccept ..

/-- What follows on the reset when an item is accepted. -/
theorem accept (s : Session) (expand : Bool) (m : Match) :
    R s ((s.supersedeResolve.prepareExpansion expand m).1.supplyEdits m
      (s.supersedeResolve.prepareExpansion expand m).2) :=
  hR.trans (hR.trans (hR.supersedeResolve s) (hR.prepareExpansion _ expand m)) (hR.supplyEdits ..)

theorem applyResolved (s : Session) (p : PendingResolve) (reply : Reply) :
    R s (s.applyResolved p reply).1 := by
  unfold Session.applyResolved
  dsimp only
  split
  · split
    · dsimp only
      split
      · exact hR.log ..
      · split
        · exact hR.applyEdits ..
        · exact hR.log ..
    · exact hR.report ..
  · split
    · exact hR.refl s
    · exact hR.report ..

theorem takeResolved (s : Session) (reply : Reply) : R s (s.takeResolved reply) := by
  unfold Session.takeResolved
  split
  next p _ =>
    have ht : R s { s with resolve := none } := hR.still (.of_eq rfl) rfl
    exact hR.trans (hR.trans ht (hR.applyResolved _ p reply)) (hR.finishAccept ..)
  · exact hR.refl s

theorem perform (s : Session) (o : DirectOperation) (ho : o.1.isIncidental = true) :
    R s (s.apply o).1 := by
  obtain ⟨o, hd⟩ := o
  cases o with
  | backspace =>
    change R s s.backspace
    unfold Session.backspace
    extract_lets line column
    split
    · exact hR.refl s
    · exact hR.still (.one rfl rfl) rfl
  | insertText => exact hR.still (.one rfl rfl) rfl
  | triggerCompletion => exact hR.triggerCompletion s
  | triggerSignatureHelp => exact hR.triggerSignatureHelp s
  | acceptPending =>
    change R s s.acceptPending.1
    unfold Session.acceptPending
    split
    · exact hR.still (.one rfl rfl) rfl
    · exact hR.refl s
  | registerCommand server command reaction =>
    have hf := s.registerCommand_frame server command reaction
    have ht : Unasked s (s.registerCommand server command reaction).1 :=
      (Adds.registerCommand ..).unasked (by simp)
    have hr : R s (s.registerCommand server command reaction).1 := hR.still ht (by rw [hf])
    exact hr
  | respond target reply =>
    change R s (s.respond target reply).1
    unfold Session.respond
    split
    next n _ =>
      have hf := s.answer_frame n reply
      exact hR.still (.of_eq (by rw [hf])) (by rw [hf])
    · exact hR.refl s
  | elapse ms => exact hR.elapse s ms
  | setCursor => exact hR.still (.of_eq rfl) rfl
  | setInserting => exact hR.still (.of_eq rfl) rfl
  | setVisible => exact hR.still (.of_eq rfl) rfl
  | setAvailable => exact hR.still (.of_eq rfl) rfl
  | registerGlobal => exact hR.still (.of_eq rfl) rfl
  | unregisterGlobal => exact hR.still (.of_eq rfl) rfl
  | answerAlways => exact hR.still (.of_eq rfl) rfl
  | _ => contradiction

theorem handle (s : Session) (live : Bool) (m : Message) :
    R s (s.handle live m) ∨ live = true ∧
      ((∃ serial, m = .timer .completion serial) ∨
        ∃ n server id reply, m = .reply n server (.completion id) reply) := by
  unfold Session.handle
  split
  next kind serial =>
    split
    next hl =>
      cases kind with
      | completion => exact .inr ⟨hl, .inl ⟨serial, rfl⟩⟩
      | signatureHelp =>
        left
        change R s s.signatureTimerElapsed
        unfold Session.signatureTimerElapsed
        split
        · exact hR.trans (hR.dropSignatureTimer s) (hR.sendSignatureHelp _ _)
        · exact hR.refl s
    next => exact .inl (hR.log ..)
  next n server purpose reply =>
    cases purpose with
    | completion id =>
      cases live with
      | true => exact .inr ⟨rfl, .inr ⟨n, server, id, reply, rfl⟩⟩
      | false => exact .inl (hR.log ..)
    | signatureHelp =>
      have hf := s.takeSignature_frame server reply
      have ht : R s (s.takeSignature server reply) :=
        hR.still (takeSignature_tacit ..).unasked (by rw [hf])
      cases live with
      | true => exact .inl ht
      | false => exact .inl (hR.refl s)
    | resolve =>
      cases live with
      | true => exact .inl (hR.takeResolved s reply)
      | false => exact .inl (hR.refl s)
    | command name =>
      left
      dsimp only
      unfold Session.takeCommandReply
      split
      · exact hR.refl s
      · exact hR.report ..

/-- Of all messages, only that of the timer for completions is not incidental, and the answer of a
server that was asked for completions. -/
theorem deliver (s : Session) (place : Nat) :
    R s (s.deliver place) ∨ RoundChange s (s.deliver place) ∨
      ∃ serial, s.queue[place]? = some (.timer .completion serial) ∧
        s.isLive (.timer .completion serial) = true ∧ s.deliver place =
          ({ s with queue := s.queue.eraseIdx place } : Session).completionTimerElapsed := by
  cases hm : s.queue[place]? with
  | none =>
    left
    rw [Session.deliver, hm]
    exact hR.refl s
  | some m =>
    have hrest : R s { s with queue := s.queue.eraseIdx place } := hR.still (.of_eq rfl) rfl
    rw [deliver_eq hm]
    rcases hR.handle { s with queue := s.queue.eraseIdx place } (s.isLive m) m with
      h | ⟨hl, ⟨serial, rfl⟩ | ⟨n, server, id, reply, rfl⟩⟩
    · exact .inl (hR.trans hrest h)
    · rw [hl]
      exact .inr (.inr ⟨serial, rfl, hl, rfl⟩)
    · have ht := RoundChange.takeCompletion s place n server id reply hm hl
      rw [hl]
      exact .inr (.inl ht)

end Incidental

end Session
end Autocomplete

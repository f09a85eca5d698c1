import Autocomplete.Proofs.Session.Requests
import Autocomplete.Session.Attachment

/-! What the end of a round and the detaching of a server leave as it is. Whoever ends a round only
tells of it; the requests of other rounds, the timers and the accepted item stay. A round of signature
help is taken apart here once: what one answer, one viewing and one detaching can do to it. -/
namespace Autocomplete

/-- Puts in the answer of a server. -/
def SignatureRound.record (g : SignatureRound) (server : ServerId) (reply : Reply) :
    SignatureRound :=
  { g with pending := g.pending.erase server, replies := g.replies.insert server reply }

/-- Does not wait for a server any longer. Unlike in a round of completion, its answer stays. -/
def SignatureRound.without (g : SignatureRound) (server : ServerId) : SignatureRound :=
  { g with pending := g.pending.erase server }

namespace Session

theorem report_frame (s : Session) (severity : Severity) (message : String) :
    s.report severity message = { s with
      reported := (s.report severity message).reported
      trace := (s.report severity message).trace } := by
  unfold report
  split
  · rfl
  · rfl

theorem reportFailure_frame (id : RequestId) (s : Session) (failure : ServerId × ResponseError) :
    reportFailure id s failure = { s with
      reported := (reportFailure id s failure).reported
      trace := (reportFailure id s failure).trace } := by
  unfold reportFailure
  dsimp only
  split
  · rfl
  · rw [report_frame]
    rfl

theorem reportFailures_frame (id : RequestId) (failures : List (ServerId × ResponseError))
    (s : Session) : failures.foldl (reportFailure id) s = { s with
      reported := (failures.foldl (reportFailure id) s).reported
      trace := (failures.foldl (reportFailure id) s).trace } := by
  induction failures generalizing s with
  | nil => rfl
  | cons f rest ih => rw [List.foldl_cons, ih (reportFailure id s f), reportFailure_frame]

theorem giveUpRound_frame (s : Session) (reason : CancelReason) :
    s.giveUpRound reason = { s with
      round := none
      requests := (s.giveUpRound reason).requests
      trace := (s.giveUpRound reason).trace } := by
  have hn := s.giveUpRound_round reason
  unfold giveUpRound at hn ⊢
  split
  next round hr =>
    dsimp only [emit]
    rw [cancelAll_frame]
  next hr =>
    rw [← hr]

theorem openRound_frame (s : Session) (trigger : Trigger) :
    s.openRound trigger = { s with
      lastId := s.lastId.next
      round := (s.openRound trigger).round
      requests := (s.openRound trigger).requests
      queue := (s.openRound trigger).queue
      tracked := (s.openRound trigger).tracked
      lastRequest := (s.openRound trigger).lastRequest
      trace := (s.openRound trigger).trace } := by
  have ha := askAll_frame (.completion s.lastId.next) (fun s b => s.completionParams trigger b)
    { s with lastId := s.lastId.next }
    (s.bindings.values.filter (·.completes))
  unfold openRound
  dsimp only
  split
  · rw [ha]
    rfl
  · rw [ha]
    rfl

theorem finishRound_frame (s : Session) (round : Round) :
    s.finishRound round = { s with
      round := none
      latency := (s.finishRound round).latency
      matcher := (s.finishRound round).matcher
      isIncomplete := (s.finishRound round).isIncomplete
      suppressDone := (s.finishRound round).suppressDone
      popup := (s.finishRound round).popup
      reported := (s.finishRound round).reported
      trace := (s.finishRound round).trace } := by
  unfold finishRound
  extract_lets t about merged roundTrip u v w x
  have hw : w = { v with reported := w.reported, trace := w.trace } :=
    reportFailures_frame round.id merged.errors v
  split
  · rfl
  · split
    · rfl
    · split
      · dsimp only [x, log]
        rw [hw]
        rfl
      · dsimp only [x, present, log, call, emit]
        rw [hw]
        rfl

theorem closeRound_frame (s : Session) :
    s.closeRound = { s with
      round := s.closeRound.round
      latency := s.closeRound.latency
      matcher := s.closeRound.matcher
      isIncomplete := s.closeRound.isIncomplete
      suppressDone := s.closeRound.suppressDone
      popup := s.closeRound.popup
      reported := s.closeRound.reported
      trace := s.closeRound.trace } := by
  unfold closeRound
  split
  · split
    · rw [finishRound_frame]
    · rfl
  · rfl

theorem recordReply_frame (s : Session) (round : Round) (server : ServerId) (reply : Reply) :
    s.recordReply round server reply = { s with
      round := (s.recordReply round server reply).round
      trace := (s.recordReply round server reply).trace } := by
  unfold recordReply
  split <;> rfl

theorem takeCompletion_frame (s : Session) (id : RequestId) (server : ServerId) (reply : Reply) :
    s.takeCompletion id server reply = { s with
      round := (s.takeCompletion id server reply).round
      latency := (s.takeCompletion id server reply).latency
      matcher := (s.takeCompletion id server reply).matcher
      isIncomplete := (s.takeCompletion id server reply).isIncomplete
      suppressDone := (s.takeCompletion id server reply).suppressDone
      popup := (s.takeCompletion id server reply).popup
      reported := (s.takeCompletion id server reply).reported
      trace := (s.takeCompletion id server reply).trace } := by
  unfold takeCompletion
  split
  · split
    · rw [closeRound_frame, recordReply_frame]
    · rfl
  · rfl

theorem dropServer_frame (s : Session) (round : Round) (server : ServerId) :
    s.dropServer round server = { s with
      round := some (round.drop server)
      requests := (s.dropServer round server).requests
      trace := (s.dropServer round server).trace } := by
  unfold dropServer
  dsimp only
  split
  · rw [cancel_frame]
  · rfl

theorem detachFromRound_frame (s : Session) (server : ServerId) :
    s.detachFromRound server = { s with
      round := (s.detachFromRound server).round
      requests := (s.detachFromRound server).requests
      latency := (s.detachFromRound server).latency
      matcher := (s.detachFromRound server).matcher
      isIncomplete := (s.detachFromRound server).isIncomplete
      suppressDone := (s.detachFromRound server).suppressDone
      popup := (s.detachFromRound server).popup
      reported := (s.detachFromRound server).reported
      trace := (s.detachFromRound server).trace } := by
  unfold detachFromRound
  split
  · rfl
  next round _ =>
    dsimp only
    have ht := s.dropServer_frame round server
    generalize s.dropServer round server = t at ht
    split
    · rw [ht]
    · split
      · rw [ht]
      · split
        · rw [emit, ht]
        · rw [finishRound_frame, ht]

/-- What comes of looking at the answer of one server. -/
theorem viewSignature_cases (s : Session) (shown : Bool) (server : ServerId) (reply : Reply) :
    (viewSignature (s, shown) (server, reply)).1 = s ∨
      (∃ e, reply = .error e ∧ e.isCancelled = false ∧
        (viewSignature (s, shown) (server, reply)).1 =
          s.report .error s!"Signature help failed on {server.display}: {e.message}") ∨
      (∃ value help, reply = .ok value ∧
        Decoder.nullable SignatureHelp.decode value = .ok (some help) ∧
        help.signatures.isEmpty = false ∧
        (viewSignature (s, shown) (server, reply)).1 = (s.call (.signature server help)).emit
          (.signatureHelpShown server help.signatures.length)) ∨
      (viewSignature (s, shown) (server, reply)).1 =
        s.log .debug "signature_help" "Malformed signature help response"
          [("server", .str server.display)] := by
  unfold viewSignature
  dsimp only
  split
  next e =>
    split
    · exact .inl rfl
    next hc => exact .inr (.inl ⟨e, rfl, Bool.eq_false_iff.mpr hc, rfl⟩)
  next value =>
    split
    · exact .inl rfl
    · split
      · exact .inl rfl
      next help hd =>
        split
        · exact .inl rfl
        next he =>
          simp only [Bool.or_eq_true, not_or, Bool.not_eq_true] at he
          exact .inr (.inr (.inl ⟨value, help, rfl, hd, he.1, rfl⟩))
      · exact .inr (.inr (.inr rfl))

/-- What holds before some answers are looked at and is kept with each of them holds in the end. -/
theorem viewSignatures_induction {P : Session → Prop}
    (step : ∀ s shown answer, P s → P (viewSignature (s, shown) answer).1)
    (answers : List (ServerId × Reply)) (s : Session) (shown : Bool) (h : P s) :
    P (answers.foldl viewSignature (s, shown)).1 := by
  induction answers generalizing s shown with
  | nil => exact h
  | cons a rest ih => exact ih _ _ (step s shown a h)

theorem viewSignature_frame (acc : Session × Bool) (answer : ServerId × Reply) :
    (viewSignature acc answer).1 = { acc.1 with
      reported := (viewSignature acc answer).1.reported
      trace := (viewSignature acc answer).1.trace } := by
  obtain ⟨s, shown⟩ := acc
  obtain ⟨server, reply⟩ := answer
  rcases viewSignature_cases s shown server reply with h | ⟨e, _, _, h⟩ | ⟨_, _, _, _, _, h⟩ | h
  · rw [h]
  · rw [h, report_frame]
  · rw [h]
    rfl
  · rw [h]
    rfl

theorem viewSignatures_frame (answers : List (ServerId × Reply)) (acc : Session × Bool) :
    (answers.foldl viewSignature acc).1 = { acc.1 with
      reported := (answers.foldl viewSignature acc).1.reported
      trace := (answers.foldl viewSignature acc).1.trace } := by
  induction answers generalizing acc with
  | nil => rfl
  | cons a rest ih => rw [List.foldl_cons, ih (viewSignature acc a), viewSignature_frame]

theorem finishSignatureRound_frame (s : Session) (round : SignatureRound) :
    s.finishSignatureRound round = { s with
      signatureRound := none
      reported := (s.finishSignatureRound round).reported
      trace := (s.finishSignatureRound round).trace } := by
  unfold finishSignatureRound
  dsimp only
  split
  · rw [viewSignatures_frame]
  · rfl

/-- The answer of a server that is waited for is put into the round, which may end then. -/
theorem takeSignature_cases (s : Session) (server : ServerId) (reply : Reply) :
    s.takeSignature server reply = s ∨
      ∃ g, s.signatureRound = some g ∧ s.takeSignature server reply =
        if (g.record server reply).pending.isEmpty then
          s.finishSignatureRound (g.record server reply)
        else { s with signatureRound := some (g.record server reply) } := by
  unfold takeSignature
  split
  next g hg =>
    split
    · exact .inr ⟨g, hg, rfl⟩
    · exact .inl rfl
  next => exact .inl rfl

theorem takeSignature_frame (s : Session) (server : ServerId) (reply : Reply) :
    s.takeSignature server reply = { s with
      signatureRound := (s.takeSignature server reply).signatureRound
      reported := (s.takeSignature server reply).reported
      trace := (s.takeSignature server reply).trace } := by
  rcases s.takeSignature_cases server reply with h | ⟨g, _, h⟩
  · rw [h]
  · rw [h]
    split
    · rw [finishSignatureRound_frame]
    · rfl

/-- A server that has answered stays in the round, and one that has not is not waited for any longer. -/
theorem detachFromSignature_cases (s : Session) (server : ServerId) :
    s.detachFromSignature server = s ∧
        (∀ g, s.signatureRound = some g → g.pending.find? server = none) ∨
      ∃ g n, s.signatureRound = some g ∧ g.pending.find? server = some n ∧
        s.detachFromSignature server =
          let u := { s with signatureRound := some (g.without server) }.cancel n
          if (g.without server).pending.isEmpty then u.finishSignatureRound (g.without server)
          else u := by
  unfold detachFromSignature
  split
  next g hg =>
    split
    next n hn => exact .inr ⟨g, n, hg, hn, rfl⟩
    next hn =>
      refine .inl ⟨rfl, fun d hd => ?_⟩
      obtain rfl := Option.some.inj (hg.symm.trans hd)
      exact hn
  next hg =>
    refine .inl ⟨rfl, fun d hd => ?_⟩
    cases hg.symm.trans hd

theorem detachFromSignature_frame (s : Session) (server : ServerId) :
    s.detachFromSignature server = { s with
      signatureRound := (s.detachFromSignature server).signatureRound
      requests := (s.detachFromSignature server).requests
      reported := (s.detachFromSignature server).reported
      trace := (s.detachFromSignature server).trace } := by
  rcases s.detachFromSignature_cases server with ⟨h, _⟩ | ⟨g, n, _, _, h⟩
  · rw [h]
  · rw [h]
    dsimp only
    split
    · rw [finishSignatureRound_frame, cancel_frame]
    · rw [cancel_frame]

theorem cancelSignatureRound_frame (s : Session) :
    s.cancelSignatureRound = { s with
      signatureRound := none
      requests := s.cancelSignatureRound.requests
      trace := s.cancelSignatureRound.trace } := by
  unfold cancelSignatureRound
  split
  · rw [cancelAll_frame]
  next hn => rw [← hn]

theorem openSignatureRound_frame (s : Session) (trigger : Option Char) :
    s.openSignatureRound trigger = { s with
      signatureRound := (s.openSignatureRound trigger).signatureRound
      requests := (s.openSignatureRound trigger).requests
      queue := (s.openSignatureRound trigger).queue
      trace := (s.openSignatureRound trigger).trace } := by
  have ha := askAll_frame .signatureHelp (fun s b => s.signatureParams trigger b) s
    (s.bindings.values.filter (wantsSignature trigger))
  unfold openSignatureRound
  dsimp only
  split
  · rw [ha]
  · rw [ha]
    rfl

theorem supersedeResolve_frame (s : Session) :
    s.supersedeResolve = { s with
      resolve := none
      requests := s.supersedeResolve.requests
      trace := s.supersedeResolve.trace } := by
  unfold supersedeResolve
  split
  · rw [cancel_frame]
    rfl
  next hn => rw [← hn]

theorem applyEdits_frame (s : Session) (server : ServerId) (edits : List TextEdit) :
    s.applyEdits server edits = { s with
      buffer := (s.applyEdits server edits).buffer
      trace := (s.applyEdits server edits).trace } := by
  have each (encoding : Encoding) (es : List TextEdit) (t : Session) :
      es.foldl (applyEdit encoding) t = { t with
        buffer := (es.foldl (applyEdit encoding) t).buffer
        trace := (es.foldl (applyEdit encoding) t).trace } := by
    induction es generalizing t with
    | nil => rfl
    | cons e es ih =>
      rw [List.foldl_cons, ih]
      rfl
  exact each _ _ s

theorem prepareExpansion_frame (s : Session) (expand : Bool) (m : Match) :
    (s.prepareExpansion expand m).1 = { s with
      buffer := (s.prepareExpansion expand m).1.buffer
      reported := (s.prepareExpansion expand m).1.reported
      trace := (s.prepareExpansion expand m).1.trace } := by
  unfold prepareExpansion
  split
  · rfl
  · split
    · rfl
    · rw [report_frame]

theorem expand_frame (s : Session) (e : Expansion) :
    (s.expand e).1 = { s with
      buffer := (s.expand e).1.buffer
      reported := (s.expand e).1.reported
      trace := (s.expand e).1.trace } := by
  unfold expand
  split
  · split
    · rfl
    · rw [report_frame]
      rfl
  · rfl

theorem applyResolved_frame (s : Session) (pending : PendingResolve) (reply : Reply) :
    (s.applyResolved pending reply).1 = { s with
      buffer := (s.applyResolved pending reply).1.buffer
      reported := (s.applyResolved pending reply).1.reported
      trace := (s.applyResolved pending reply).1.trace } := by
  unfold applyResolved
  dsimp only
  split
  · split
    · dsimp only
      split
      · rfl
      · split
        · rw [applyEdits_frame]
        · rfl
    · rw [report_frame]
  · split
    · rfl
    · rw [report_frame]

theorem detach_frame (s : Session) (server : ServerId) :
    s.detach server = { s with
      bindings := (s.detach server).bindings
      round := (s.detach server).round
      signatureRound := (s.detach server).signatureRound
      requests := (s.detach server).requests
      latency := (s.detach server).latency
      matcher := (s.detach server).matcher
      isIncomplete := (s.detach server).isIncomplete
      suppressDone := (s.detach server).suppressDone
      popup := (s.detach server).popup
      reported := (s.detach server).reported
      trace := (s.detach server).trace } := by
  unfold detach
  split
  · dsimp only [note]
    rw [detachFromRound_frame, detachFromSignature_frame]
  · rfl

theorem attach_frame (s : Session) (server : ServerId) (capabilities : Capabilities)
    (options : AttachOptions) : s.attach server capabilities options = { s with
      bindings := s.bindings.insert server
        (Binding.ofCapabilities server capabilities options s.config)
      trace := (s.attach server capabilities options).trace } := by
  unfold attach
  dsimp only
  split <;> rfl

theorem registerCommand_frame (s : Session) (server : ServerId) (command : String)
    (reaction : Reaction) : (s.registerCommand server command reaction).1 = { s with
      bindings := (s.registerCommand server command reaction).1.bindings } := by
  unfold registerCommand
  split <;> rfl

end Session
end Autocomplete

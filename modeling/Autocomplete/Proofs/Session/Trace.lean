import Autocomplete.Proofs.Session.Change
import Autocomplete.Proofs.Session.Frame

/-! What each change adds to the trace, by kinds of observations, and which changes keep all that is
known about requests. -/
namespace Autocomplete

/-- Observations by what they tell about rounds and about text that was taken out for a snippet. -/
inductive Observation.Kind where
  | plain
  /-- Text is taken out for a snippet, handed to an engine or put back. -/
  | text
  /-- A completion request is sent. -/
  | asking
  | cancel
  | opened
  | givenUp
  | shown
  | recorded
  | detached
  deriving DecidableEq

@[grind =]
def Observation.kind : Observation → Observation.Kind
  | .call (.request _ _ .completion _) => .asking
  | .call (.cancel _) => .cancel
  | .call (.present ..) => .shown
  | .call (.expand ..) => .text
  | .call _ => .plain
  | .edit (.makeRoom _) .. => .text
  | .edit .putBack .. => .text
  | .edit .. => .plain
  | .event (.requested ..) => .opened
  | .event (.cancelled ..) => .givenUp
  | .event _ => .plain
  | .log _ => .plain
  | .note (.recorded ..) => .recorded
  | .note (.detached _) => .detached

namespace Session
open Observation Relation

def Adds (kinds : List Kind) (s t : Session) : Prop :=
  ∃ obs, t.trace = s.trace ++ obs ∧ ∀ o ∈ obs, o.kind ∈ kinds

namespace Adds

variable {kinds more : List Kind} {s t u : Session}

theorem of_eq (h : t.trace = s.trace) : Adds kinds s t := ⟨[], by simp [h], by simp⟩

theorem one {o : Observation} (h : t.trace = s.trace ++ [o]) (ho : o.kind ∈ kinds) :
    Adds kinds s t := ⟨[o], h, by simpa using ho⟩

theorem trans (h : Adds kinds s t) (g : Adds kinds t u) : Adds kinds s u := by
  obtain ⟨a, ha, hk⟩ := h
  obtain ⟨b, hb, hl⟩ := g
  refine ⟨a ++ b, by rw [hb, ha, List.append_assoc], fun o ho => ?_⟩
  exact (List.mem_append.mp ho).elim (hk o) (hl o)

theorem mono (h : Adds kinds s t) (hk : kinds ⊆ more) : Adds more s t := by
  obtain ⟨a, ha, hm⟩ := h
  exact ⟨a, ha, fun o ho => hk (hm o ho)⟩

/-- What is read off other kinds of observations stays the same. -/
theorem filterMap_eq {β : Type} {f : Observation → Option β} (h : Adds kinds s t)
    (hf : ∀ o, o.kind ∈ kinds → f o = none) : t.trace.filterMap f = s.trace.filterMap f := by
  obtain ⟨obs, ht, ho⟩ := h
  have hn : obs.filterMap f = [] := List.filterMap_eq_nil_iff.mpr fun o h => hf o (ho o h)
  rw [ht, List.filterMap_append, hn, List.append_nil]

theorem logAll (s : Session) (records : List LogRecord) : Adds [.plain] s (s.logAll records) := by
  refine ⟨records.map .log, rfl, fun o ho => ?_⟩
  obtain ⟨r, _, rfl⟩ := List.mem_map.mp ho
  simp [kind]

theorem log (s : Session) (level : Level) (area message : String)
    (fields : List (String × Json)) : Adds [.plain] s (s.log level area message fields) :=
  one rfl (by simp [kind])

theorem emit (s : Session) (e : Event) (he : (Observation.event e).kind ∈ kinds) :
    Adds kinds s (s.emit e) := one rfl he

theorem call (s : Session) (c : Call) (hc : (Observation.call c).kind ∈ kinds) :
    Adds kinds s (s.call c) := one rfl hc

theorem report (s : Session) (severity : Severity) (message : String) :
    Adds [.plain] s (s.report severity message) := by
  unfold Session.report
  split
  · exact of_eq rfl
  · exact (log ..).trans (one rfl (by simp [kind]))

theorem cancel (s : Session) (n : Nat) : Adds [.cancel] s (s.cancel n) := by
  refine ⟨_, cancel_trace s n, fun o ho => ?_⟩
  split at ho
  · simp [List.mem_singleton.mp ho, kind]
  · simp at ho

theorem cancelAll (s : Session) (asked : List Nat) (pending : ServerMap Nat) :
    Adds [.cancel] s (s.cancelAll asked pending) := by
  obtain ⟨obs, ht, ho⟩ := cancelAll_trace s asked pending
  refine ⟨obs, ht, fun o h => ?_⟩
  obtain ⟨n, _, rfl⟩ := ho o h
  simp [kind]

theorem giveUpRound (s : Session) (reason : CancelReason) :
    Adds [.cancel, .givenUp] s (s.giveUpRound reason) := by
  unfold Session.giveUpRound
  split
  next round _ =>
    have h := cancelAll { s with round := none } round.asked round.pending
    exact (h.mono (by simp)).trans (emit _ _ (by simp [kind]))
  · exact of_eq rfl

theorem send (s : Session) (server : ServerId) (purpose : Purpose) (params : Json)
    (hp : (Observation.call (.request s.requests.length server purpose.method params)).kind ∈ kinds) :
    Adds kinds s (s.send server purpose params).1 :=
  one (by rw [send_frame]) hp

theorem askAll (purpose : Purpose) (params : Session → Binding → Json) (bs : List Binding)
    (s : Session) (hp : ∀ n server json,
      (Observation.call (.request n server purpose.method json)).kind ∈ kinds) :
    Adds kinds s (askAll purpose params s bs).1 := by
  induction bs generalizing s with
  | nil => exact of_eq rfl
  | cons b bs ih => exact (send s b.server purpose (params s b) (hp ..)).trans (ih _)

theorem openRound (s : Session) (trigger : Trigger) :
    Adds [.asking, .plain, .opened] s (s.openRound trigger) := by
  unfold Session.openRound
  extract_lets cursor id t
  have ha : Adds [.asking] t _ :=
    askAll (.completion id) (fun s b => s.completionParams trigger b)
      (t.bindings.values.filter (·.completes)) t (by simp [kind, Purpose.method])
  split
  next u asked hu =>
    rw [hu] at ha
    have hs : Adds [.asking, .plain, .opened] s u := ha.mono (by simp)
    split
    · exact hs.trans ((log ..).mono (by simp))
    · extract_lets tracked v w pending round
      have hv : Adds [.plain] u w := log v ..
      exact (hs.trans (hv.mono (by simp))).trans (emit _ _ (by simp [kind]))

theorem cancelSignatureRound (s : Session) : Adds [.cancel] s s.cancelSignatureRound := by
  unfold Session.cancelSignatureRound
  split
  next round _ => exact cancelAll { s with signatureRound := none } round.asked round.pending
  · exact of_eq rfl

theorem openSignatureRound (s : Session) (trigger : Option Char) :
    Adds [.plain] s (s.openSignatureRound trigger) := by
  have ha : Adds [.plain] s _ :=
    askAll .signatureHelp (fun s b => s.signatureParams trigger b)
      (s.bindings.values.filter (wantsSignature trigger)) s (by simp [kind, Purpose.method])
  unfold Session.openSignatureRound
  split
  next u asked hu =>
    rw [hu] at ha
    split
    · exact ha
    · exact ha.trans (log ..)

theorem viewSignature (s : Session) (shown : Bool) (answer : ServerId × Reply) :
    Adds [.plain] s (viewSignature (s, shown) answer).1 := by
  rcases viewSignature_cases s shown answer.1 answer.2 with h | ⟨e, _, _, h⟩ | ⟨_, _, _, _, _, h⟩ | h
  · exact of_eq (by rw [h])
  · rw [h]
    exact report ..
  · rw [h]
    exact (call _ _ (by simp [kind])).trans (emit _ _ (by simp [kind]))
  · rw [h]
    exact log ..

theorem viewSignatures (answers : List (ServerId × Reply)) (s : Session) (shown : Bool) :
    Adds [.plain] s (answers.foldl Session.viewSignature (s, shown)).1 :=
  viewSignatures_induction (fun t shown answer ht => ht.trans (viewSignature t shown answer)) answers
    s shown (of_eq rfl)

theorem finishSignatureRound (s : Session) (round : SignatureRound) :
    Adds [.plain] s (s.finishSignatureRound round) := by
  unfold Session.finishSignatureRound
  extract_lets u
  split
  · exact viewSignatures _ u _
  · exact of_eq rfl

theorem takeSignature (s : Session) (server : ServerId) (reply : Reply) :
    Adds [.plain] s (s.takeSignature server reply) := by
  rcases s.takeSignature_cases server reply with h | ⟨g, _, h⟩
  · exact of_eq (by rw [h])
  · rw [h]
    split
    · exact finishSignatureRound s _
    · exact of_eq rfl

theorem detachFromSignature (s : Session) (server : ServerId) :
    Adds [.cancel, .plain] s (s.detachFromSignature server) := by
  rcases s.detachFromSignature_cases server with ⟨h, _⟩ | ⟨g, n, _, _, h⟩
  · exact of_eq (by rw [h])
  · rw [h]
    extract_lets u
    have hu : Adds [.cancel, .plain] s u :=
      (cancel { s with signatureRound := some (g.without server) } n).mono (by simp)
    split
    · exact hu.trans ((finishSignatureRound u _).mono (by simp))
    · exact hu

theorem reportFailures (id : RequestId) (failures : List (ServerId × ResponseError))
    (s : Session) : Adds [.plain] s (failures.foldl (reportFailure id) s) := by
  induction failures generalizing s with
  | nil => exact of_eq rfl
  | cons f rest ih =>
    refine trans ?_ (ih _)
    unfold reportFailure
    dsimp only
    split
    · exact emit _ _ (by simp [kind])
    · exact (report ..).trans (emit _ _ (by simp [kind]))

theorem present (s : Session) (round : Round) (merged : Merged) (roundTrip : Duration) :
    Adds [.plain, .shown] s (s.present round merged roundTrip) := by
  unfold Session.present
  extract_lets count t u v w
  have hu : Adds [.plain, .shown] s u := (log t ..).mono (by simp)
  have hv : Adds [.plain, .shown] u v := call u _ (by simp [kind])
  exact (hu.trans hv).trans (emit w _ (by simp [kind]))

theorem finishRound (s : Session) (round : Round) :
    Adds [.plain, .shown] s (s.finishRound round) := by
  unfold Session.finishRound
  extract_lets t about merged roundTrip u v w x
  have hl : Adds [.plain] s t := of_eq rfl
  split
  · exact (hl.trans (log ..)).mono (by simp)
  · split
    · exact (hl.trans (log ..)).mono (by simp)
    · have hu : Adds [.plain] t v := logAll t _
      have hw : Adds [.plain] v w := reportFailures round.id merged.errors v
      have hx : Adds [.plain] s x := (hl.trans hu).trans hw
      split
      · exact (hx.trans (log x ..)).mono (by simp)
      · exact (hx.mono (by simp)).trans (present ..)

theorem recordReply (s : Session) (round : Round) (server : ServerId) (reply : Reply) :
    Adds [.recorded] s (s.recordReply round server reply) := by
  unfold Session.recordReply
  split
  · exact one rfl (by simp [kind])
  · exact of_eq rfl

theorem closeRound (s : Session) : Adds [.plain, .shown] s s.closeRound := by
  unfold Session.closeRound
  split
  · split
    · exact finishRound ..
    · exact of_eq rfl
  · exact of_eq rfl

theorem takeCompletion (s : Session) (id : RequestId) (server : ServerId) (reply : Reply) :
    Adds [.recorded, .plain, .shown] s (s.takeCompletion id server reply) := by
  unfold Session.takeCompletion
  split
  · split
    · exact ((recordReply ..).mono (by simp)).trans ((closeRound _).mono (by simp))
    · exact of_eq rfl
  · exact of_eq rfl

theorem dropServer (s : Session) (round : Round) (server : ServerId) :
    Adds [.cancel] s (s.dropServer round server) := by
  unfold Session.dropServer
  extract_lets t
  split
  next n _ => exact cancel t n
  next => exact of_eq rfl

theorem detachFromRound (s : Session) (server : ServerId) :
    Adds [.cancel, .givenUp, .plain, .shown] s (s.detachFromRound server) := by
  unfold Session.detachFromRound
  split
  · exact of_eq rfl
  next round _ =>
    extract_lets t
    have ht : Adds [.cancel, .givenUp, .plain, .shown] s t :=
      (dropServer s round server).mono (by simp)
    split
    · exact ht
    · split
      · exact ht
      · split
        · exact ht.trans (emit _ _ (by simp [kind]))
        · exact ht.trans ((finishRound t _).mono (by simp))

theorem detach (s : Session) (server : ServerId) :
    Adds [.detached, .cancel, .givenUp, .plain, .shown] s (s.detach server) := by
  unfold Session.detach
  split
  · extract_lets t
    have ht : Adds [.detached, .cancel, .givenUp, .plain, .shown] s t := one rfl (by simp [kind])
    have hs := detachFromSignature t server
    exact (ht.trans (hs.mono (by simp))).trans ((detachFromRound _ server).mono (by simp))
  · exact of_eq rfl

theorem attach (s : Session) (server : ServerId) (capabilities : Capabilities)
    (options : AttachOptions) : Adds [.plain] s (s.attach server capabilities options) := by
  unfold Session.attach
  extract_lets b t u
  have ht : Adds [.plain] s t := log s ..
  split
  · exact ht.trans (log u ..)
  · exact ht

theorem registerCommand (s : Session) (server : ServerId) (command : String)
    (reaction : Reaction) : Adds [] s (s.registerCommand server command reaction).1 := by
  unfold Session.registerCommand
  split <;> exact of_eq rfl

theorem answer (s : Session) (n : Nat) (reply : Reply) : Adds kinds s (s.answer n reply) :=
  of_eq (by rw [answer_frame])

end Adds

/-- No change has to do with accepted items, with the time that answers take, or with what a session is
set up with. -/
theorem Change.frame {s t : Session} (h : Change s t) : t = { s with
    buffer := t.buffer
    popup := t.popup
    snippets := t.snippets
    globals := t.globals
    automatic := t.automatic
    requests := t.requests
    queue := t.queue
    now := t.now
    tokens := t.tokens
    bindings := t.bindings
    completionTimer := t.completionTimer
    lastRequest := t.lastRequest
    round := t.round
    isIncomplete := t.isIncomplete
    suppressDone := t.suppressDone
    expandSnippet := t.expandSnippet
    tracked := t.tracked
    signatureTimer := t.signatureTimer
    signatureRound := t.signatureRound
    reported := t.reported
    lastId := t.lastId
    trace := t.trace } := by
  cases h with
  | report => rw [report_frame]
  | registerCommand => rw [registerCommand_frame]
  | giveUpRound => rw [giveUpRound_frame]
  | openRound => rw [openRound_frame]
  | cancelSignatureRound => rw [cancelSignatureRound_frame]
  | openSignatureRound => rw [openSignatureRound_frame]
  | takeSignature => rw [takeSignature_frame]
  | sendCommand => rw [send_frame]
  | answer => rw [answer_frame]
  | _ => rfl

theorem TextChange.frame {s t : Session} (h : TextChange s t) : t = { s with
    buffer := t.buffer
    requests := t.requests
    queue := t.queue
    resolve := t.resolve
    reported := t.reported
    trace := t.trace } := by
  cases h with
  | supersedeResolve => rw [supersedeResolve_frame]
  | sendResolve payload =>
    unfold Session.sendResolve
    dsimp only
    rw [send_frame]
    rfl
  | expand => rw [expand_frame]
  | _ => rfl

/-- Of all changes, only two begin or give up a round. -/
theorem Change.round_cases {s t : Session} (h : Change s t) :
    (∃ reason, t = s.giveUpRound reason) ∨
      (∃ trigger, s.round = none ∧ t = s.openRound trigger) ∨
      Adds [.plain, .cancel] s t ∧ t.round = s.round ∧ t.lastId = s.lastId := by
  have still {u : Session} {kinds : List Kind} (ha : Adds kinds s u) (hk : kinds ⊆ [.plain, .cancel])
      (hr : u.round = s.round) (hi : u.lastId = s.lastId) :
      Adds [.plain, .cancel] s u ∧ u.round = s.round ∧ u.lastId = s.lastId :=
    ⟨ha.mono hk, hr, hi⟩
  cases h with
  | giveUpRound reason => exact .inl ⟨reason, rfl⟩
  | openRound trigger hs => exact .inr (.inl ⟨trigger, hs, rfl⟩)
  | logAll => exact .inr (.inr (still (Adds.logAll ..) (by simp) rfl rfl))
  | report =>
    exact .inr (.inr (still (Adds.report ..) (by simp) (by rw [report_frame]) (by rw [report_frame])))
  | tell c hc =>
    have ha : Adds [.plain] s (s.call c) :=
      Adds.call _ _ (by cases c <;> simp_all [kind, Call.isPlain])
    exact .inr (.inr (still ha (by simp) rfl rfl))
  | edit cause start stop text hc =>
    have ha : Adds [.plain] s (s.edit cause start stop text) :=
      Adds.one rfl (by cases cause <;> simp_all [kind, EditCause.isPlain])
    exact .inr (.inr (still ha (by simp) rfl rfl))
  | armCompletion => exact .inr (.inr (still (Adds.log ..) (by simp) rfl rfl))
  | armSignatureHelp => exact .inr (.inr (still (Adds.log ..) (by simp) rfl rfl))
  | registerCommand =>
    exact .inr (.inr (still (Adds.registerCommand ..) (by simp) (by rw [registerCommand_frame])
      (by rw [registerCommand_frame])))
  | cancelSignatureRound =>
    exact .inr (.inr (still (Adds.cancelSignatureRound s) (by simp)
      (by rw [cancelSignatureRound_frame]) (by rw [cancelSignatureRound_frame])))
  | openSignatureRound =>
    exact .inr (.inr (still (Adds.openSignatureRound ..) (by simp) (by rw [openSignatureRound_frame])
      (by rw [openSignatureRound_frame])))
  | takeSignature place number server reply =>
    have ha : Adds [.plain] s _ :=
      Adds.takeSignature { s with queue := s.queue.eraseIdx place } server reply
    exact .inr (.inr (still ha (by simp) (by rw [takeSignature_frame]) (by rw [takeSignature_frame])))
  | sendCommand server name params =>
    have ha : Adds [.plain] s _ :=
      Adds.send s server (.command name) params (by simp [kind, Purpose.method])
    exact .inr (.inr (still ha (by simp) (by rw [send_frame]) (by rw [send_frame])))
  | answer number reply =>
    have ha : Adds [] s (s.answer number reply) := Adds.answer ..
    exact .inr (.inr (still ha (by simp) (by rw [answer_frame]) (by rw [answer_frame])))
  | _ =>
    have ha {u : Session} (hu : u.trace = s.trace) : Adds [] s u := .of_eq hu
    exact .inr (.inr (still (ha rfl) (by simp) rfl rfl))

/-- No change by itself shows results or has to do with text that was taken out. -/
theorem Change.adds {s t : Session} (h : Change s t) :
    Adds [.plain, .asking, .cancel, .opened, .givenUp] s t := by
  rcases h.round_cases with ⟨reason, rfl⟩ | ⟨trigger, _, rfl⟩ | ⟨ha, _, _⟩
  · exact (Adds.giveUpRound ..).mono (by simp)
  · exact (Adds.openRound ..).mono (by simp)
  · exact ha.mono (by simp)

theorem RoundChange.adds {s t : Session} (h : RoundChange s t) :
    Adds [.recorded, .detached, .cancel, .givenUp, .plain, .shown] s t := by
  cases h with
  | attach => exact (Adds.attach ..).mono (by simp)
  | detach => exact (Adds.detach ..).mono (by simp)
  | takeCompletion place number server id reply _ _ =>
    exact (Adds.takeCompletion { s with queue := s.queue.eraseIdx place } id server reply).mono
      (by simp)

end Session
end Autocomplete

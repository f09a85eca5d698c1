import Autocomplete.Proofs.Session.Trace

/-! What the servers are asked when a round starts: each server that the round is about, once and in
ascending order, with parameters for the text and the cursor as they are then. -/
namespace Autocomplete

/-- What a request asks, and of which server. -/
def Observation.ask? : Observation → Option (ServerId × Method × Json)
  | .call (.request _ server method params) => some (server, method, params)
  | _ => none

namespace Session
open Observation

/-- All that servers were asked, in the order of the requests. -/
def asks (s : Session) : List (ServerId × Method × Json) := s.trace.filterMap ask?

theorem asks_log (s : Session) (level : Level) (area message : String)
    (fields : List (String × Json)) : (s.log level area message fields).asks = s.asks := by
  simp [asks, log, ask?]

theorem asks_emit (s : Session) (e : Event) : (s.emit e).asks = s.asks := by
  simp [asks, emit, ask?]

/-- Giving requests up asks for nothing. -/
theorem Adds.asks_eq {s t : Session} (h : Adds [.cancel, .givenUp] s t) : t.asks = s.asks := by
  refine h.filterMap_eq fun o ho => ?_
  cases o with
  | call c =>
    cases c with
    | request _ _ method _ => cases method <;> simp [kind] at ho
    | _ => rfl
  | _ => rfl

theorem asks_send (s : Session) (server : ServerId) (purpose : Purpose) (params : Json) :
    (s.send server purpose params).1.asks = s.asks ++ [(server, purpose.method, params)] := by
  rw [send_frame]
  exact List.filterMap_append

/-- Parameters that depend neither on the requests nor on what was told are the same for each server. -/
theorem asks_askAll (purpose : Purpose) (params : Session → Binding → Json)
    (hparams : ∀ (s : Session) requests queue trace b,
      params { s with requests, queue, trace } b = params s b) (bs : List Binding) (s : Session) :
    (askAll purpose params s bs).1.asks =
      s.asks ++ bs.map fun b => (b.server, purpose.method, params s b) := by
  induction bs generalizing s with
  | nil => exact (List.append_nil _).symm
  | cons b bs ih =>
    have hsame (d : Binding) : params (s.send b.server purpose (params s b)).1 d = params s d := by
      rw [send_frame, hparams]
    change (askAll purpose params (s.send b.server purpose (params s b)).1 bs).1.asks = _
    rw [ih, asks_send, List.append_assoc]
    simp only [hsame]
    rfl

theorem asks_openRound (s : Session) (trigger : Trigger) : (s.openRound trigger).asks = s.asks ++
    (s.bindings.values.filter (·.completes)).map fun b =>
      (b.server, .completion, s.completionParams trigger b) := by
  have ha := asks_askAll (.completion s.lastId.next) (fun s b => s.completionParams trigger b)
    (fun _ _ _ _ _ => rfl) (s.bindings.values.filter (·.completes)) { s with lastId := s.lastId.next }
  unfold openRound
  dsimp only
  generalize askAll (.completion s.lastId.next) (fun s b => s.completionParams trigger b)
    { s with lastId := s.lastId.next } (s.bindings.values.filter (·.completes)) = result at ha ⊢
  split
  · rw [asks_log]
    exact ha
  · rw [asks_emit]
    exact (asks_log ..).trans ha

/-- A round asks the servers that complete. -/
theorem asks_startRound (s : Session) (trigger : Trigger) : (s.startRound trigger).asks = s.asks ++
    (s.bindings.values.filter (·.completes)).map fun b =>
      (b.server, .completion, s.completionParams trigger b) := by
  have hg : (s.giveUpRound .newRequest).asks = s.asks := (Adds.giveUpRound s .newRequest).asks_eq
  rw [startRound, asks_openRound, hg, giveUpRound_frame]
  rfl

theorem asks_openSignatureRound (s : Session) (trigger : Option Char) :
    (s.openSignatureRound trigger).asks = s.asks ++
      (s.bindings.values.filter (wantsSignature trigger)).map fun b =>
        (b.server, .signatureHelp, s.signatureParams trigger b) := by
  have ha := asks_askAll .signatureHelp (fun s b => s.signatureParams trigger b)
    (fun _ _ _ _ _ => rfl) (s.bindings.values.filter (wantsSignature trigger)) s
  unfold openSignatureRound
  generalize askAll .signatureHelp (fun s b => s.signatureParams trigger b) s
    (s.bindings.values.filter (wantsSignature trigger)) = result at ha ⊢
  dsimp only
  split
  · exact ha
  · exact (asks_log ..).trans ha

/-- A round for a typed character asks the servers that registered it, and tells them of it. -/
theorem asks_sendSignatureHelp (s : Session) (c : Char) :
    (s.sendSignatureHelp (some c)).asks = s.asks ++
      (s.bindings.values.filter (·.isSignatureTrigger c)).map fun b =>
        (b.server, .signatureHelp, .ofFields (s.documentPosition b.encoding ++
          [("context", .ofFields [("triggerKind", .int 2), ("triggerCharacter", .str c.toString),
            ("isRetrigger", .bool false)])])) := by
  have hc : s.cancelSignatureRound.asks = s.asks :=
    ((Adds.cancelSignatureRound s).mono (by simp)).asks_eq
  rw [sendSignatureHelp, asks_openSignatureRound, hc, cancelSignatureRound_frame]
  rfl

end Session
end Autocomplete

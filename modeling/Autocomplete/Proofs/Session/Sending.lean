import Autocomplete.Proofs.Session.Outstanding

/-! Which requests are sent. A request is never taken back and keeps its server and what it is for, so
that the list of them only grows. Completion requests are sent when a round is opened, to all servers
that complete, and by no other change. -/
namespace Autocomplete.Session

/-- To which servers requests were sent and for what, in that order. -/
def sent (s : Session) : List (ServerId × Purpose) := s.requests.map fun r => (r.server, r.purpose)

theorem sent_length (s : Session) : s.sent.length = s.requests.length := List.length_map ..

/-- Requests may change otherwise. -/
theorem sent_eq_of_update {s t : Session} {g : Nat → Request → Request}
    (hr : ∀ n, t.requests[n]? = s.requests[n]?.map (g n))
    (hg : ∀ n r, (g n r).server = r.server ∧ (g n r).purpose = r.purpose) : t.sent = s.sent := by
  apply List.ext_getElem?
  intro n
  rw [sent, sent, List.getElem?_map, List.getElem?_map, hr, Option.map_map]
  congr 1
  funext r
  rw [Function.comp_apply, (hg n r).1, (hg n r).2]

theorem sent_eq {s t : Session} (h : t.requests = s.requests) : t.sent = s.sent := by
  rw [sent, h, sent]

theorem forget_sent (s : Session) (n : Nat) : (s.forget n).sent = s.sent := by
  refine sent_eq_of_update (s.forget_requests n) fun k r => ?_
  split <;> exact ⟨rfl, rfl⟩

theorem cancel_sent (s : Session) (n : Nat) : (s.cancel n).sent = s.sent := by
  refine sent_eq_of_update (s.cancel_requests n) fun k r => ?_
  split <;> exact ⟨rfl, rfl⟩

theorem cancelAll_sent (s : Session) (asked : List Nat) (pending : ServerMap Nat) :
    (s.cancelAll asked pending).sent = s.sent := by
  have each {f : Session → Nat → Session} (hf : ∀ t n, (f t n).sent = t.sent) (ns : List Nat)
      (t : Session) : (ns.foldl f t).sent = t.sent := by
    induction ns generalizing t with
    | nil => rfl
    | cons n ns ih => rw [List.foldl_cons, ih, hf]
  rw [cancelAll, each cancel_sent, each forget_sent]

theorem giveUpRound_sent (s : Session) (reason : CancelReason) :
    (s.giveUpRound reason).sent = s.sent := by
  unfold giveUpRound
  split
  · exact cancelAll_sent _ _ _
  · rfl

theorem cancelSignatureRound_sent (s : Session) : s.cancelSignatureRound.sent = s.sent := by
  unfold cancelSignatureRound
  split
  · exact cancelAll_sent _ _ _
  · rfl

theorem answer_sent (s : Session) (n : Nat) (reply : Reply) : (s.answer n reply).sent = s.sent := by
  refine sent_eq_of_update (fun k => s.answer_requests n k reply) fun k r => ?_
  split <;> exact ⟨rfl, rfl⟩

theorem send_sent (s : Session) (server : ServerId) (purpose : Purpose) (params : Json) :
    (s.send server purpose params).1.sent = s.sent ++ [(server, purpose)] := by
  have hp : (s.post server purpose params).sent = s.sent ++ [(server, purpose)] := List.map_append
  rcases (s.send_eq server purpose params).2 with h | ⟨reply, h⟩
  · rw [h, hp]
  · rw [h, answer_sent, hp]

theorem askAll_sent (purpose : Purpose) (params : Session → Binding → Json) (bs : List Binding)
    (s : Session) :
    (askAll purpose params s bs).1.sent = s.sent ++ bs.map fun b => (b.server, purpose) := by
  induction bs generalizing s with
  | nil => exact (List.append_nil _).symm
  | cons b bs ih =>
    change (askAll purpose params (s.send b.server purpose (params s b)).1 bs).1.sent = _
    rw [ih, send_sent, List.append_assoc]
    rfl

/-- From one state to the next, no completion request is sent. -/
def SendsOther (s t : Session) : Prop :=
  ∃ more, t.sent = s.sent ++ more ∧ ∀ e ∈ more, e.2.isCompletion = false

namespace SendsOther

variable {s t : Session}

theorem of_eq (h : t.sent = s.sent) : SendsOther s t := ⟨[], by rw [h, List.append_nil], by simp⟩

theorem length_le (h : SendsOther s t) : s.requests.length ≤ t.requests.length := by
  obtain ⟨more, ht, _⟩ := h
  rw [← sent_length, ← sent_length, ht, List.length_append]
  exact Nat.le_add_right ..

theorem mem_sent (h : SendsOther s t) {server : ServerId} {id : RequestId} :
    (server, .completion id) ∈ t.sent ↔ (server, .completion id) ∈ s.sent := by
  obtain ⟨more, ht, hm⟩ := h
  rw [ht, List.mem_append, or_iff_left]
  intro hn
  cases hm _ hn

end SendsOther

theorem openRound_sent (s : Session) (trigger : Trigger) :
    (s.openRound trigger).sent = s.sent ++
      (s.bindings.values.filter (·.completes)).map fun b =>
        (b.server, .completion s.lastId.next) := by
  have ha := askAll_sent (.completion s.lastId.next) (fun s b => s.completionParams trigger b)
    (s.bindings.values.filter (·.completes)) { s with lastId := s.lastId.next }
  unfold openRound
  dsimp only
  generalize askAll (.completion s.lastId.next) (fun s b => s.completionParams trigger b)
    { s with lastId := s.lastId.next } (s.bindings.values.filter (·.completes)) = result at ha ⊢
  split
  · exact ha
  · exact ha

theorem Change.sends {s t : Session} (h : Change s t) :
    (∃ trigger, s.round = none ∧ t = s.openRound trigger) ∨ SendsOther s t := by
  cases h with
  | openRound trigger hs => exact .inl ⟨trigger, hs, rfl⟩
  | report => exact .inr (.of_eq (sent_eq (by rw [report_frame])))
  | registerCommand => exact .inr (.of_eq (sent_eq (by rw [registerCommand_frame])))
  | takeSignature => exact .inr (.of_eq (sent_eq (by rw [takeSignature_frame])))
  | giveUpRound reason => exact .inr (.of_eq (giveUpRound_sent s reason))
  | cancelSignatureRound => exact .inr (.of_eq (cancelSignatureRound_sent s))
  | openSignatureRound trigger =>
    have ha := askAll_sent .signatureHelp (fun s b => s.signatureParams trigger b)
      (s.bindings.values.filter (wantsSignature trigger)) s
    have hp (e : ServerId × Purpose) (he : e ∈ (s.bindings.values.filter
        (wantsSignature trigger)).map fun b => (b.server, Purpose.signatureHelp)) :
        e.2.isCompletion = false := by
      obtain ⟨b, _, rfl⟩ := List.mem_map.mp he
      rfl
    refine .inr ⟨_, ?_, hp⟩
    unfold Session.openSignatureRound
    generalize askAll .signatureHelp (fun s b => s.signatureParams trigger b) s
      (s.bindings.values.filter (wantsSignature trigger)) = result at ha ⊢
    dsimp only
    split
    · exact ha
    · exact ha
  | sendCommand server name params =>
    exact .inr ⟨_, send_sent s server (.command name) params, by simp [Purpose.isCompletion]⟩
  | answer n reply => exact .inr (.of_eq (answer_sent s n reply))
  | _ => exact .inr (.of_eq rfl)

theorem TextChange.sends {s t : Session} (h : TextChange s t) : SendsOther s t := by
  cases h with
  | supersedeResolve =>
    refine .of_eq ?_
    unfold Session.supersedeResolve
    split
    · exact cancel_sent _ _
    · rfl
  | sendResolve payload expansion =>
    have hs := send_sent s payload.server .resolve payload.item.encode
    unfold Session.sendResolve
    generalize s.send payload.server .resolve payload.item.encode = result at hs ⊢
    exact ⟨_, hs, by simp [Purpose.isCompletion]⟩
  | expand => exact .of_eq (sent_eq (by rw [expand_frame]))
  | _ => exact .of_eq rfl

theorem RoundChange.sent_eq {s t : Session} (h : RoundChange s t) : t.sent = s.sent := by
  cases h with
  | attach => exact Session.sent_eq (by rw [attach_frame])
  | takeCompletion => exact Session.sent_eq (by rw [takeCompletion_frame])
  | detach server =>
    by_cases hs : s.bindings.contains server = true
    · refine sent_eq_of_update (s.detach_requests hs) fun k r => ?_
      split <;> exact ⟨rfl, rfl⟩
    · simp [Session.detach, hs]

theorem Change.length_le {s t : Session} (h : Change s t) :
    s.requests.length ≤ t.requests.length := by
  rcases h.sends with ⟨trigger, _, rfl⟩ | hs
  · rw [← sent_length, ← sent_length, openRound_sent, List.length_append]
    exact Nat.le_add_right ..
  · exact hs.length_le

theorem RoundChange.length_le {s t : Session} (h : RoundChange s t) :
    s.requests.length ≤ t.requests.length :=
  Nat.le_of_eq (by rw [← sent_length, ← sent_length, h.sent_eq])

end Autocomplete.Session

import Autocomplete.Proofs.Session.Sending
import Autocomplete.Proofs.Session.Timers

/-! Handling all messages that wait. A handler may make the session send requests, and what is answered
at once waits behind the other messages; but only the message of a timer and the answer to a resolve
request have that effect, and neither can come up meanwhile: no handler arms a timer or asks for the
missing parts of an item. -/
namespace Autocomplete

/-- Whether handling a message may make the session send requests. -/
def Message.asks : Message → Bool
  | .timer .. => true
  | .reply _ _ .resolve _ => true
  | .reply .. => false

theorem messageWeight_eq (bindings : Nat) (m : Message) :
    Session.messageWeight bindings m = (if m.asks then bindings + 1 else 0) + 1 := by
  cases m with
  | timer => rfl
  | reply _ _ purpose => cases purpose <;> rfl

namespace Session

/-- From one state to the next no timer is armed. -/
structure ArmsNothing (s t : Session) : Prop where
  tokens : t.tokens.length = s.tokens.length
  armed : ∀ kind timer, t.armed? kind = some timer → s.armed? kind = some timer

namespace ArmsNothing

variable {s t u : Session}

theorem trans (h : ArmsNothing s t) (k : ArmsNothing t u) : ArmsNothing s u where
  tokens := k.tokens.trans h.tokens
  armed kind timer hu := h.armed kind timer (k.armed kind timer hu)

theorem of_eq (tokens : t.tokens = s.tokens) (completion : t.completionTimer = s.completionTimer)
    (signature : t.signatureTimer = s.signatureTimer) : ArmsNothing s t where
  tokens := congrArg List.length tokens
  armed kind timer h := by cases kind <;> simpa only [armed?, completion, signature] using h

theorem dropCompletionTimer (s : Session) : ArmsNothing s s.dropCompletionTimer where
  tokens := s.tokensWithout_length _
  armed kind timer h := by
    cases kind with
    | completion => cases h
    | signatureHelp => exact h

theorem dropSignatureTimer (s : Session) : ArmsNothing s s.dropSignatureTimer where
  tokens := s.tokensWithout_length _
  armed kind timer h := by
    cases kind with
    | completion => exact h
    | signatureHelp => cases h

end ArmsNothing

/-- From one state to the next at most so many requests are sent, none of them to resolve an item, and
the only messages that come up are answers to such requests. -/
structure Sends (n : Nat) (s t : Session) : Prop where
  bindings : t.bindings = s.bindings
  sent : ∃ more, t.sent = s.sent ++ more ∧ more.length ≤ n ∧ ∀ e ∈ more, e.2 ≠ .resolve
  queue : ∃ replies, t.queue = s.queue ++ replies ∧ replies.length ≤ n ∧
    ∀ m ∈ replies, m.asks = false
  arms : ArmsNothing s t

namespace Sends

variable {s t u : Session} {m n : Nat}

theorem mono (h : Sends m s t) (hn : m ≤ n) : Sends n s t := by
  obtain ⟨more, hs, hl, hr⟩ := h.sent
  obtain ⟨replies, hq, hk, ha⟩ := h.queue
  exact ⟨h.bindings, ⟨more, hs, hl.trans hn, hr⟩, ⟨replies, hq, hk.trans hn, ha⟩, h.arms⟩

theorem trans (h : Sends m s t) (k : Sends n t u) : Sends (m + n) s u := by
  obtain ⟨a, hs, hl, hr⟩ := h.sent
  obtain ⟨b, ks, kl, kr⟩ := k.sent
  obtain ⟨p, hq, hp, ha⟩ := h.queue
  obtain ⟨q, kq, kp, ka⟩ := k.queue
  refine ⟨k.bindings.trans h.bindings, ⟨a ++ b, ?_, ?_, ?_⟩, ⟨p ++ q, ?_, ?_, ?_⟩,
    h.arms.trans k.arms⟩
  · rw [ks, hs, List.append_assoc]
  · rw [List.length_append]
    exact Nat.add_le_add hl kl
  · simpa only [List.forall_mem_append] using ⟨hr, kr⟩
  · rw [kq, hq, List.append_assoc]
  · rw [List.length_append]
    exact Nat.add_le_add hp kp
  · simpa only [List.forall_mem_append] using ⟨ha, ka⟩

theorem before (h : Sends 0 s t) (k : Sends n t u) : Sends n s u := (h.trans k).mono (by simp)

theorem followed (h : Sends n s t) (k : Sends 0 t u) : Sends n s u := h.trans k

theorem nothing (bindings : t.bindings = s.bindings) (sent : t.sent = s.sent)
    (queue : t.queue = s.queue) (arms : ArmsNothing s t) : Sends 0 s t where
  bindings := bindings
  sent := ⟨[], by rw [sent, List.append_nil], Nat.le_refl _, by simp⟩
  queue := ⟨[], by rw [queue, List.append_nil], Nat.le_refl _, by simp⟩
  arms := arms

theorem aside (bindings : t.bindings = s.bindings) (sent : t.sent = s.sent)
    (queue : t.queue = s.queue) (tokens : t.tokens = s.tokens)
    (completion : t.completionTimer = s.completionTimer)
    (signature : t.signatureTimer = s.signatureTimer) : Sends 0 s t :=
  .nothing bindings sent queue (.of_eq tokens completion signature)

theorem refl (s : Session) : Sends 0 s s := .aside rfl rfl rfl rfl rfl rfl

theorem send (s : Session) (server : ServerId) (purpose : Purpose) (params : Json)
    (hp : purpose ≠ .resolve) : Sends 1 s (s.send server purpose params).1 := by
  have hf := s.send_frame server purpose params
  have hq : ∃ replies, (s.send server purpose params).1.queue = s.queue ++ replies ∧
      replies.length ≤ 1 ∧ ∀ m ∈ replies, m.asks = false := by
    rcases (s.send_eq server purpose params).2 with h | ⟨reply, h⟩
    · exact ⟨[], by rw [h, List.append_nil]; rfl, Nat.zero_le _, by simp⟩
    · rcases (s.post server purpose params).answer_queue s.requests.length reply with
        he | ⟨r, hr, _, _, he⟩
      · exact ⟨[], by rw [h, he, List.append_nil]; rfl, Nat.zero_le _, by simp⟩
      · rw [post_requests, if_pos rfl] at hr
        obtain rfl := Option.some.inj hr
        refine ⟨_, by rw [h, he]; rfl, Nat.le_refl _, fun m hm => ?_⟩
        rw [List.mem_singleton.mp hm]
        cases purpose with
        | resolve => exact absurd rfl hp
        | _ => rfl
  refine ⟨by rw [hf],
    ⟨_, s.send_sent server purpose params, Nat.le_refl _, by simpa using hp⟩, hq,
    .of_eq (by rw [hf]) (by rw [hf]) (by rw [hf])⟩

theorem askAll (purpose : Purpose) (params : Session → Binding → Json)
    (hp : purpose ≠ .resolve) (bs : List Binding) (s : Session) :
    Sends bs.length s (askAll purpose params s bs).1 := by
  induction bs generalizing s with
  | nil => exact .refl s
  | cons b bs ih =>
    refine ((Sends.send s b.server purpose (params s b) hp).trans (ih _)).mono ?_
    rw [List.length_cons, Nat.add_comm]

theorem log (s : Session) (level : Level) (area message : String)
    (fields : List (String × Json)) : Sends 0 s (s.log level area message fields) :=
  .aside rfl rfl rfl rfl rfl rfl

theorem filter_bindings_length_le (s : Session) (p : Binding → Bool) :
    (s.bindings.values.filter p).length ≤ s.bindings.size :=
  (List.length_filter_le ..).trans (Nat.le_of_eq (List.length_map ..))

theorem openRound (s : Session) (trigger : Trigger) :
    Sends s.bindings.size s (s.openRound trigger) := by
  have ha := (Sends.askAll (.completion s.lastId.next) (fun s b => s.completionParams trigger b)
    nofun (s.bindings.values.filter (·.completes)) { s with lastId := s.lastId.next }).mono
      (filter_bindings_length_le s _)
  have hl : Sends 0 s { s with lastId := s.lastId.next } := .aside rfl rfl rfl rfl rfl rfl
  unfold Session.openRound
  dsimp only
  generalize Session.askAll (.completion s.lastId.next) (fun s b => s.completionParams trigger b)
    { s with lastId := s.lastId.next } (s.bindings.values.filter (·.completes)) = result at ha ⊢
  split
  · exact (hl.before ha).followed (.aside rfl rfl rfl rfl rfl rfl)
  · exact (hl.before ha).followed (.aside rfl rfl rfl rfl rfl rfl)

theorem giveUpRound (s : Session) (reason : CancelReason) :
    Sends 0 s (s.giveUpRound reason) := by
  have hf := s.giveUpRound_frame reason
  exact .aside (by rw [hf]) (s.giveUpRound_sent reason) (by rw [hf]) (by rw [hf]) (by rw [hf])
    (by rw [hf])

theorem startRound (s : Session) (trigger : Trigger) :
    Sends s.bindings.size s (s.startRound trigger) := by
  have hg := giveUpRound s .newRequest
  have ho := openRound (s.giveUpRound .newRequest) trigger
  rw [hg.bindings] at ho
  exact hg.before ho

theorem sendSignatureHelp (s : Session) (trigger : Option Char) :
    Sends s.bindings.size s (s.sendSignatureHelp trigger) := by
  have hf := s.cancelSignatureRound_frame
  have hc : Sends 0 s s.cancelSignatureRound :=
    .aside (by rw [hf]) s.cancelSignatureRound_sent (by rw [hf]) (by rw [hf]) (by rw [hf])
      (by rw [hf])
  have ha := (Sends.askAll .signatureHelp (fun s b => s.signatureParams trigger b) nofun
    (s.cancelSignatureRound.bindings.values.filter (wantsSignature trigger))
    s.cancelSignatureRound).mono (filter_bindings_length_le ..)
  rw [hc.bindings] at ha
  unfold Session.sendSignatureHelp Session.openSignatureRound
  dsimp only
  rw [hc.bindings]
  generalize Session.askAll .signatureHelp (fun s b => s.signatureParams trigger b)
    s.cancelSignatureRound (s.bindings.values.filter (wantsSignature trigger)) = result at ha ⊢
  split
  · exact hc.before ha
  · exact (hc.before ha).followed (.aside rfl rfl rfl rfl rfl rfl)

theorem dropCompletionTimer (s : Session) : Sends 0 s s.dropCompletionTimer :=
  .nothing rfl rfl rfl (.dropCompletionTimer s)

theorem dropSignatureTimer (s : Session) : Sends 0 s s.dropSignatureTimer :=
  .nothing rfl rfl rfl (.dropSignatureTimer s)

theorem report (s : Session) (severity : Severity) (message : String) :
    Sends 0 s (s.report severity message) := by
  have hf := s.report_frame severity message
  exact .aside (by rw [hf]) (sent_eq (by rw [hf])) (by rw [hf]) (by rw [hf]) (by rw [hf])
    (by rw [hf])

theorem triggerCompletion (s : Session) : Sends s.bindings.size s s.triggerCompletion :=
  (dropCompletionTimer s).before (startRound s.dropCompletionTimer .manual)

theorem triggerSignatureHelp (s : Session) : Sends s.bindings.size s s.triggerSignatureHelp := by
  unfold Session.triggerSignatureHelp
  split
  · exact (dropSignatureTimer s).before (sendSignatureHelp s.dropSignatureTimer none)
  · exact (refl s).mono (Nat.zero_le _)

theorem followUp (s : Session) (f : FollowUp) : Sends s.bindings.size s (s.followUp f) := by
  unfold Session.followUp
  extract_lets t
  have ht : Sends 0 s t := log ..
  cases f with
  | triggerCompletion => exact ht.before (triggerCompletion t)
  | triggerSignatureHelp => exact ht.before (triggerSignatureHelp t)

theorem runHandler (s : Session) (server : ServerId) (command : Command) (handler : Handler) :
    Sends s.bindings.size s (s.runHandler server command handler) := by
  unfold Session.runHandler
  extract_lets t u
  have hu : Sends 0 s u := by
    unfold u
    split <;> exact .aside rfl rfl rfl rfl rfl rfl
  split
  next f _ =>
    have hf := followUp u f
    rw [hu.bindings] at hf
    exact hu.before hf
  next => exact hu.mono (Nat.zero_le _)

theorem executeCommand (s : Session) (server : ServerId) (command : Command) :
    Sends (s.bindings.size + 1) s (s.executeCommand server command) := by
  unfold Session.executeCommand
  split
  · exact (runHandler ..).mono (Nat.le_succ _)
  · split
    · extract_lets t params
      have ht : Sends 0 s t := log ..
      exact (ht.before (send t server (.command command.name) params (by simp))).mono
        (Nat.succ_le_succ (Nat.zero_le _))
    · exact (report ..).mono (Nat.zero_le _)

theorem concludeAccept (s : Session) (payload : Payload) (resolved : Option Command)
    (expanded : Bool) :
    Sends (s.bindings.size + 1) s (s.concludeAccept payload resolved expanded) := by
  unfold Session.concludeAccept
  extract_lets t u
  have hu : Sends 0 s u := .aside rfl rfl rfl rfl rfl rfl
  split
  · exact hu.before (executeCommand u _ _)
  · exact hu.mono (Nat.zero_le _)

theorem expand (s : Session) (e : Expansion) : Sends 0 s (s.expand e).1 := by
  have hf := s.expand_frame e
  exact .aside (by rw [hf]) (sent_eq (by rw [hf])) (by rw [hf]) (by rw [hf]) (by rw [hf])
    (by rw [hf])

theorem finishAccept (s : Session) (payload : Payload) (resolved : Option Command)
    (expansion : Option Expansion) :
    Sends (s.bindings.size + 1) s (s.finishAccept payload resolved expansion) := by
  cases expansion with
  | none => exact concludeAccept s payload resolved false
  | some e =>
    have hc := concludeAccept (s.expand e).1 payload resolved (s.expand e).2
    rw [(expand s e).bindings] at hc
    exact (expand s e).before hc

theorem takeResolved (s : Session) (reply : Reply) :
    Sends (s.bindings.size + 1) s (s.takeResolved reply) := by
  unfold Session.takeResolved
  split
  next pending _ =>
    have hf := applyResolved_frame { s with resolve := none } pending reply
    generalize ({ s with resolve := none } : Session).applyResolved pending reply = result at hf
    obtain ⟨t, command⟩ := result
    dsimp only at hf ⊢
    have ht : Sends 0 s t := .aside (by rw [hf]) (sent_eq (by rw [hf])) (by rw [hf]) (by rw [hf])
      (by rw [hf]) (by rw [hf])
    have hc := finishAccept t pending.payload command pending.expansion
    rw [ht.bindings] at hc
    exact ht.before hc
  next => exact (refl s).mono (Nat.zero_le _)

theorem takeCompletion (s : Session) (id : RequestId) (server : ServerId) (reply : Reply) :
    Sends 0 s (s.takeCompletion id server reply) := by
  have hf := s.takeCompletion_frame id server reply
  exact .aside (by rw [hf]) (sent_eq (by rw [hf])) (by rw [hf]) (by rw [hf]) (by rw [hf])
    (by rw [hf])

theorem takeSignature (s : Session) (server : ServerId) (reply : Reply) :
    Sends 0 s (s.takeSignature server reply) := by
  have hf := s.takeSignature_frame server reply
  exact .aside (by rw [hf]) (sent_eq (by rw [hf])) (by rw [hf]) (by rw [hf]) (by rw [hf])
    (by rw [hf])

theorem takeCommandReply (s : Session) (server : ServerId) (command : String) (reply : Reply) :
    Sends 0 s (s.takeCommandReply server command reply) := by
  cases reply with
  | ok => exact refl s
  | error => exact report ..

theorem timerElapsed (s : Session) (kind : TimerKind) : Sends (s.bindings.size + 1) s
    (match kind with
      | .completion => s.completionTimerElapsed
      | .signatureHelp => s.signatureTimerElapsed) := by
  cases kind with
  | completion =>
    dsimp only
    unfold completionTimerElapsed
    split
    · exact ((dropCompletionTimer s).before (startRound s.dropCompletionTimer _)).mono
        (Nat.le_succ _)
    · exact (refl s).mono (Nat.zero_le _)
  | signatureHelp =>
    dsimp only
    unfold signatureTimerElapsed
    split
    · exact ((dropSignatureTimer s).before (sendSignatureHelp s.dropSignatureTimer _)).mono
        (Nat.le_succ _)
    · exact (refl s).mono (Nat.zero_le _)

theorem handle (s : Session) (live : Bool) (m : Message) :
    Sends (if m.asks then s.bindings.size + 1 else 0) s (s.handle live m) := by
  have hn {n : Nat} : Sends n s s := (refl s).mono (Nat.zero_le _)
  cases m with
  | timer kind serial =>
    unfold Session.handle
    cases live with
    | true => exact timerElapsed s kind
    | false => exact (log ..).mono (Nat.zero_le _)
  | reply number server purpose reply =>
    unfold Session.handle
    cases purpose with
    | completion id =>
      cases live with
      | true => exact takeCompletion s id server reply
      | false => exact log ..
    | signatureHelp =>
      cases live with
      | true => exact takeSignature s server reply
      | false => exact hn
    | resolve =>
      cases live with
      | true => exact takeResolved s reply
      | false => exact hn
    | command name => exact takeCommandReply s server name reply

end Sends

/-- Answers for which nothing is sent weigh one each. -/
theorem backlog_append {s t : Session} {replies : List Message} (hq : t.queue = s.queue ++ replies)
    (hb : t.bindings = s.bindings) (hw : ∀ m ∈ replies, m.asks = false) :
    t.backlog = s.backlog + replies.length := by
  have hone : replies.foldr (fun m n => messageWeight s.bindings.size m + n) 0 = replies.length := by
    clear hq
    induction replies with
    | nil => rfl
    | cons m rest ih =>
      have hm : messageWeight s.bindings.size m = 1 := by
        rw [messageWeight_eq, hw m List.mem_cons_self]
        rfl
      rw [List.foldr_cons, ih fun r hr => hw r (List.mem_cons_of_mem _ hr), hm, List.length_cons,
        Nat.add_comm]
  rw [backlog, hq, hb, List.foldr_append, hone, backlog]
  induction s.queue with
  | nil => exact (Nat.zero_add _).symm
  | cons m rest ih => rw [List.foldr_cons, List.foldr_cons, ih, Nat.add_assoc]

/-- A message is outweighed by none of what comes up while it is handled. -/
theorem backlog_handleNext {s t : Session} (h : s.handleNext = some t) :
    t.backlog < s.backlog := by
  unfold handleNext nextMessage? at h
  split at h
  · cases h
  next m rest hq =>
    obtain rfl := Option.some.inj h
    have hh := Sends.handle { s with queue := rest } (isLive { s with queue := rest } m) m
    obtain ⟨replies, hr, hl, hw⟩ := hh.queue
    have hs : s.backlog =
        messageWeight s.bindings.size m + backlog { s with queue := rest } := by
      rw [backlog, hq]
      rfl
    rw [backlog_append hr hh.bindings hw, hs, messageWeight_eq]
    dsimp only at hl
    omega

theorem handleNext_eq_none {s : Session} : s.handleNext = none ↔ s.queue = [] := by
  unfold handleNext nextMessage?
  split
  next hq => simp [hq]
  next hq => simp [hq]

/-- One message after the other is handled, until none waits; `n` counts them. -/
inductive Drains : Session → Nat → Session → Prop where
  | done {s : Session} (h : s.handleNext = none) : Drains s 0 s
  | turn {s t u : Session} {n : Nat} (h : s.handleNext = some t) (rest : Drains t n u) :
      Drains s (n + 1) u

namespace Drains

variable {s t : Session} {n : Nat}

theorem queue (h : Drains s n t) : t.queue = [] := by
  induction h with
  | done hn => exact handleNext_eq_none.mp hn
  | turn _ _ ih => exact ih

theorem le_backlog (h : Drains s n t) : n ≤ s.backlog := by
  induction h with
  | done => exact Nat.zero_le _
  | turn hn _ ih => exact Nat.lt_of_le_of_lt ih (backlog_handleNext hn)

/-- Handling as many messages as the backlog allows for leaves none waiting. -/
theorem of_backlog_le {fuel : Nat} (hf : s.backlog ≤ fuel) :
    Drains s (drainUpTo fuel s).2 (drainUpTo fuel s).1 := by
  induction fuel generalizing s with
  | zero =>
    refine .done (Option.eq_none_iff_forall_ne_some.mpr fun t ht => ?_)
    exact Nat.not_lt_zero _ (Nat.lt_of_lt_of_le (backlog_handleNext ht) hf)
  | succ fuel ih =>
    unfold drainUpTo
    cases hn : s.handleNext with
    | none => exact .done hn
    | some t =>
      have ht : t.backlog ≤ fuel :=
        Nat.le_of_lt_succ (Nat.lt_of_lt_of_le (backlog_handleNext hn) hf)
      exact .turn hn (ih ht)

end Drains

theorem drain_drains (s : Session) : Drains s s.drain.2 s.drain.1 := .of_backlog_le (Nat.le_refl _)

theorem messageWeight_le (bindings : Nat) (m : Message) :
    messageWeight bindings m ≤ bindings + 2 := by
  rw [messageWeight_eq]
  split <;> omega

theorem backlog_le (s : Session) : s.backlog ≤ s.queue.length * (s.bindings.size + 2) := by
  unfold backlog
  induction s.queue with
  | nil => exact Nat.zero_le _
  | cons m rest ih =>
    rw [List.foldr_cons, List.length_cons, Nat.succ_mul, Nat.add_comm]
    exact Nat.add_le_add ih (messageWeight_le s.bindings.size m)

/-- One message was handled. Whatever else there is may have changed just before, such as the buffer, the
clock, what the transport answers at once, or the handlers of a server, as long as the same number of
servers is attached. -/
def Turn (s t : Session) : Prop :=
  ∃ u : Session, u.queue = s.queue ∧ u.bindings.size = s.bindings.size ∧ u.handleNext = some t

theorem turn_backlog {s t : Session} (h : Turn s t) : t.backlog < s.backlog := by
  obtain ⟨u, hq, hb, hn⟩ := h
  have hu : u.backlog = s.backlog := by rw [backlog, backlog, hq, hb]
  exact hu ▸ backlog_handleNext hn

/-- From every state, handling one message after the other comes to an end, with none waiting, and no
change to what the handlers work with can prevent that. No handler arms a timer or asks for the missing
parts of an item, and only the messages of timers and resolved items make the session send requests. -/
theorem drain_terminates :
    (∀ s : Session, Drains s s.drain.2 s.drain.1 ∧ s.drain.1.queue = [] ∧
      s.drain.2 ≤ s.queue.length * (s.bindings.size + 2)) ∧
    (WellFounded fun t s => Turn s t) ∧
    ∀ (s : Session) (live : Bool) (m : Message), let t := s.handle live m
      ArmsNothing s t ∧ ∃ more, t.sent = s.sent ++ more ∧ (∀ e ∈ more, e.2 ≠ .resolve) ∧
        (m.asks = false → more = []) := by
  refine ⟨fun s => ?_, ?_, fun s live m => ?_⟩
  · have hd := s.drain_drains
    exact ⟨hd, hd.queue, hd.le_backlog.trans s.backlog_le⟩
  · exact Subrelation.wf turn_backlog (measure backlog).wf
  · have hh := Sends.handle s live m
    obtain ⟨more, hs, hl, hr⟩ := hh.sent
    refine ⟨hh.arms, more, hs, hr, fun hm => ?_⟩
    rw [hm] at hl
    exact List.length_eq_zero_iff.mp (Nat.le_zero.mp hl)

end Session
end Autocomplete

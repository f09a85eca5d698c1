import Autocomplete.Proofs.Session.Detachment
import Autocomplete.Proofs.Session.Sending
import Autocomplete.Proofs.Session.Timers

/-! Leaving insertion, or closing the popup without a selection, puts everything about requests back.
Nothing that was under way before matters afterwards, however late its message is handled. -/
namespace Autocomplete.Session

/-- Operations that put everything about requests back. The popup may also be reported closed because
it was replaced, and that is passed over. -/
def Resets (s : Session) : Operation → Prop
  | .insertLeave => True
  | .completeDone selection => s.suppressDone = false ∧ s.selected? selection = none
  | _ => False

theorem Resets.direct {s : Session} {o : Operation} (h : s.Resets o) : o.direct = true := by
  cases o with
  | insertLeave => rfl
  | completeDone => rfl
  | _ => exact h.elim

theorem Resets.apply_eq {s : Session} {o : Operation} (h : s.Resets o) :
    ∃ reason, (s.apply o).1 = s.reset reason := by
  cases o with
  | insertLeave => exact ⟨.insertLeave, rfl⟩
  | completeDone selection =>
    refine ⟨.dismissed, ?_⟩
    change s.completeDone (s.selected? selection) = s.reset .dismissed
    rw [h.2, completeDone, if_neg (by rw [h.1]; exact Bool.false_ne_true)]
  | _ => exact h.elim

theorem reset_frame (s : Session) (reason : CancelReason) :
    s.reset reason = { s with
      completionTimer := none, signatureTimer := none, round := none, signatureRound := none
      lastRequest := none, isIncomplete := false, suppressDone := false, expandSnippet := false
      tokens := (s.reset reason).tokens
      requests := (s.reset reason).requests
      trace := (s.reset reason).trace } := by
  unfold reset cancelSignatureHelp
  dsimp only
  rw [giveUpRound_frame, cancelSignatureRound_frame]
  rfl

/-- Every timer that was armed has a token. -/
theorem reset_tokens_length (s : Session) (reason : CancelReason) :
    (s.reset reason).tokens.length = s.tokens.length := by
  have hu : (s.reset reason).tokens = s.dropCompletionTimer.dropSignatureTimer.tokens := by
    unfold reset cancelSignatureHelp
    dsimp only
    rw [giveUpRound_frame, cancelSignatureRound_frame]
  rw [hu]
  exact (tokensWithout_length ..).trans (tokensWithout_length ..)

theorem reset_sent (s : Session) (reason : CancelReason) : (s.reset reason).sent = s.sent :=
  (giveUpRound_sent ..).trans (cancelSignatureRound_sent _)

theorem giveUpRound_requests (s : Session) (reason : CancelReason) {n : Nat} {r : Request}
    (hr : s.requests[n]? = some r) : ∃ q, (s.giveUpRound reason).requests[n]? = some q ∧
      (q.handle = r.handle ∨ q.handle = r.handle.cancel) ∧ (r.live = false → q.live = false) ∧
      ∀ server, s.pending? server = some n → q.live = false ∧ q.handle = r.handle.cancel := by
  unfold giveUpRound
  split
  next c hc =>
    have hq := cancelAll_requests { s with round := none } c.asked c.pending n
    rw [show ({ s with round := none } : Session).requests[n]? = some r from hr,
      Option.map_some] at hq
    refine ⟨_, hq, ?_, fun hl => ?_, fun server hp => ?_⟩
    · split
      · exact .inr rfl
      · split <;> exact .inl rfl
    · split
      · rfl
      · split
        · rfl
        · exact hl
    · rw [pending?, hc, Option.bind_some] at hp
      rw [if_pos ((Table.mem_values_iff _ _).mpr ⟨server, hp⟩)]
      exact ⟨rfl, rfl⟩
  next hc =>
    refine ⟨r, hr, .inl rfl, id, fun server hp => ?_⟩
    rw [pending?, hc] at hp
    cases hp

theorem cancelSignatureRound_requests (s : Session) {n : Nat} {r : Request}
    (hr : s.requests[n]? = some r) : ∃ q, s.cancelSignatureRound.requests[n]? = some q ∧
      (q.handle = r.handle ∨ q.handle = r.handle.cancel) ∧
      ∀ server, s.helpPending? server = some n → q.live = false ∧ q.handle = r.handle.cancel := by
  unfold cancelSignatureRound
  split
  next g hg =>
    have hq := cancelAll_requests { s with signatureRound := none } g.asked g.pending n
    rw [show ({ s with signatureRound := none } : Session).requests[n]? = some r from hr,
      Option.map_some] at hq
    refine ⟨_, hq, ?_, fun server hp => ?_⟩
    · split
      · exact .inr rfl
      · split <;> exact .inl rfl
    · rw [helpPending?, hg, Option.bind_some] at hp
      rw [if_pos ((Table.mem_values_iff _ _).mpr ⟨server, hp⟩)]
      exact ⟨rfl, rfl⟩
  next hg =>
    refine ⟨r, hr, .inl rfl, fun server hp => ?_⟩
    rw [helpPending?, hg] at hp
    cases hp

/-- Whatever a round waits for is given up, here and where it was sent. -/
theorem reset_requests (s : Session) (reason : CancelReason) {n : Nat} {r : Request}
    {server : ServerId} (hr : s.requests[n]? = some r)
    (hp : s.helpPending? server = some n ∨ s.pending? server = some n) :
    ∃ q, (s.reset reason).requests[n]? = some q ∧ q.live = false ∧
      q.handle = r.handle.cancel := by
  have hu : s.dropCompletionTimer.dropSignatureTimer.requests[n]? = some r := hr
  obtain ⟨p, hp1, hhandle, hhelp⟩ := cancelSignatureRound_requests _ hu
  obtain ⟨q, hq, hgiven, hdead, hround⟩ := giveUpRound_requests _ reason hp1
  refine ⟨q, hq, ?_⟩
  rcases hp with hp | hp
  · obtain ⟨hl, hc⟩ := hhelp server hp
    refine ⟨hdead hl, ?_⟩
    rcases hgiven with he | he
    · rw [he, hc]
    · rw [he, hc, RequestHandle.cancel_cancel]
  · have hs : s.dropCompletionTimer.dropSignatureTimer.cancelSignatureRound.pending? server =
        some n := by
      rw [pending?, cancelSignatureRound_frame]
      exact hp
    obtain ⟨hl, hc⟩ := hround server hs
    refine ⟨hl, ?_⟩
    rcases hhandle with he | he
    · rw [hc, he]
    · rw [hc, he, RequestHandle.cancel_cancel]

/-- What a reset has put back, another one leaves as it is. -/
theorem reset_reset (s : Session) (reason again : CancelReason) :
    (s.reset reason).reset again = s.reset reason := by
  have hf := s.reset_frame reason
  generalize s.reset reason = t at hf
  rw [hf]
  rfl

theorem Change.asks {s t : Session} (h : Change s t) :
    Asks (fun _ _ n => s.requests.length ≤ n) s t := by
  have hcanc := h.cancellable_eq
  cases h with
  | report =>
    have hf := s.report_frame .warning
    exact .of_eq (by rw [hf]) (by rw [hf]; rfl) hcanc
  | elapse ms =>
    have hs := elapse_silent s ms
    exact .of_eq hs.books.requests hs.books.waiting hcanc
  | registerCommand server command reaction =>
    have hf := s.registerCommand_frame server command reaction
    exact .of_eq (by rw [hf]) (by rw [hf]; rfl) hcanc
  | giveUpRound reason => exact (giveUpRound_asks s reason).mono fun _ _ _ => False.elim
  | openRound trigger => exact (openRound_asks s trigger).mono fun _ _ _ h => h.2
  | cancelSignatureRound => exact s.cancelSignatureRound_asks.mono fun _ _ _ => False.elim
  | openSignatureRound trigger =>
    have ha := Asks.askAll .signatureHelp (fun s b => s.signatureParams trigger b)
      (s.bindings.values.filter (wantsSignature trigger)) s
    have hn := (askAll_requests .signatureHelp (fun s b => s.signatureParams trigger b) s
      (s.bindings.values.filter (wantsSignature trigger))).2
    have hu : Asks (fun _ _ n => s.requests.length ≤ n) s
        (askAll .signatureHelp (fun s b => s.signatureParams trigger b) s
          (s.bindings.values.filter (wantsSignature trigger))).1 :=
      ha.mono fun x _ n he => (hn x n he.2).1
    unfold Session.openSignatureRound
    generalize askAll .signatureHelp (fun s b => s.signatureParams trigger b) s
      (s.bindings.values.filter (wantsSignature trigger)) = result at hu
    dsimp only
    split
    · exact hu
    · exact hu.same rfl rfl rfl
  | takeSignature place number server reply =>
    have hf := takeSignature_frame { s with queue := s.queue.eraseIdx place } server reply
    exact (Asks.discard s place).same (by rw [hf]) (by rw [waiting, waiting, hf]) (by rw [hf])
  | sendCommand server name params =>
    exact (Asks.send s server (.command name) params).mono fun _ _ _ h => Nat.le_of_eq h.2.2.symm
  | answer n reply => exact .answer s n reply
  | discard place => exact .discard s place
  | _ => exact .of_eq rfl rfl hcanc

theorem TextChange.asks {s t : Session} (h : TextChange s t) :
    Asks (fun _ _ n => s.requests.length ≤ n) s t := by
  cases h with
  | supersedeResolve => exact s.supersedeResolve_asks.mono fun _ _ _ => False.elim
  | sendResolve payload expansion =>
    have ha := Asks.send s payload.server .resolve payload.item.encode
    have hu : Asks (fun _ _ n => s.requests.length ≤ n) s
        (s.send payload.server .resolve payload.item.encode).1 :=
      ha.mono fun _ _ _ h => Nat.le_of_eq h.2.2.symm
    unfold Session.sendResolve
    generalize s.send payload.server .resolve payload.item.encode = result at hu
    exact hu.same rfl rfl rfl
  | takeUp place => exact (Asks.discard s place).same rfl rfl rfl
  | expand e =>
    have hf := s.expand_frame e
    exact .of_eq (by rw [hf]) (by rw [waiting, waiting, hf]) (by rw [hf])
  | _ => exact .of_eq rfl rfl rfl

theorem RoundChange.asks {s t : Session} (h : RoundChange s t) : AsksNothing s t := by
  cases h with
  | attach server capabilities options =>
    have hf := s.attach_frame server capabilities options
    exact .of_eq (by rw [hf]) (by rw [waiting, waiting, hf]) (by rw [hf])
  | detach server => exact s.detach_asks server
  | takeCompletion place n server id reply =>
    have hf := takeCompletion_frame { s with queue := s.queue.eraseIdx place } id server reply
    exact (Asks.discard s place).same (by rw [hf]) (by rw [waiting, waiting, hf]) (by rw [hf])

/-- Of the first requests, none about completion or signature help is outstanding. -/
structure Quit (m : Nat) (s : Session) : Prop where
  sent : m ≤ s.requests.length
  settled : ∀ n r, s.Outstanding n r → n < m →
    r.purpose.isCompletion = false ∧ r.purpose ≠ .signatureHelp

namespace Quit

variable {s t : Session} {m : Nat}

theorem step (h : Quit m s) (hl : s.requests.length ≤ t.requests.length)
    (ha : Asks (fun _ _ n => s.requests.length ≤ n) s t) : Quit m t := by
  refine ⟨Nat.le_trans h.sent hl, fun n r ho hn => ?_⟩
  rcases ha.outstanding n r ho with hnew | ⟨q, hq, _, hp⟩
  · exact absurd (Nat.lt_of_lt_of_le hn h.sent) (Nat.not_lt.mpr hnew)
  · exact hp ▸ h.settled n q hq hn

theorem after (h : Quit m s) (actions : List Action) : Quit m (s.after actions) :=
  after_induction (fun _ _ hc h => h.step hc.length_le hc.asks)
    (fun _ _ hc h => h.step hc.sends.length_le hc.asks)
    (fun _ _ hc h => h.step hc.length_le (hc.asks.mono fun _ _ _ => False.elim)) h actions

/-- When no round is under way, none of all requests is outstanding. -/
theorem of_idle (h : Remembers s) (hr : s.round = none) (hg : s.signatureRound = none) :
    Quit s.requests.length s := by
  refine ⟨Nat.le_refl _, fun n r ho _ => ⟨Bool.eq_false_iff.mpr fun hp => ?_, fun hp => ?_⟩⟩
  · exact not_pending_of_round hr _ _ (h.completion ho hp)
  · obtain ⟨g, he, _⟩ := h.help n r ho hp
    rw [hg] at he
    cases he

/-- An answer that arrives late is not even put into the queue. -/
theorem answer_queue (h : Quit m s) {n : Nat} {r : Request} (hn : n < m)
    (hr : s.requests[n]? = some r)
    (hp : r.purpose.isCompletion = true ∨ r.purpose = .signatureHelp) (reply : Reply) :
    (s.answer n reply).queue = s.queue := by
  rcases s.answer_queue n reply with hq | ⟨q, hq, haw, hl, _⟩
  · exact hq
  · obtain rfl := Option.some.inj (hr.symm.trans hq)
    obtain ⟨hc, hg⟩ := h.settled n r ⟨hr, hl, .inl haw⟩ hn
    rcases hp with hp | hp
    · exact absurd (hc.symm.trans hp) Bool.false_ne_true
    · exact absurd hp hg

/-- The answer to an early request is passed over. -/
theorem passesOver (h : Quit m s) (hs : Remembers s) {place n : Nat} {server : ServerId}
    {purpose : Purpose} {reply : Reply}
    (hm : s.queue[place]? = some (.reply n server purpose reply)) (hn : n < m)
    (hp : purpose.isCompletion = true ∨ purpose = .signatureHelp) : s.PassesOver place := by
  have hd : s.isLive (.reply n server purpose reply) = false := by
    refine Bool.eq_false_iff.mpr fun hl => ?_
    obtain ⟨r, ho, _, rfl, _⟩ := hs.outstanding_of_live hm hl
    obtain ⟨hc, hg⟩ := h.settled n r ho hn
    rcases hp with hp | hp
    · exact absurd (hc.symm.trans hp) Bool.false_ne_true
    · exact hg hp
  have he := deliver_eq hm
  rw [hd] at he
  cases purpose with
  | completion id => exact ⟨[_], he⟩
  | signatureHelp =>
    refine ⟨[], he.trans ?_⟩
    change _ = ({ s with queue := s.queue.eraseIdx place, trace := s.trace ++ [] } : Session)
    rw [List.append_nil]
    rfl
  | resolve => rcases hp with hp | hp <;> cases hp
  | command => rcases hp with hp | hp <;> cases hp

end Quit

/-- A message stems from a timer that was armed or a request about completion or signature help that
was sent. -/
def Caused (s : Session) : Message → Prop
  | .timer _ serial => serial < s.tokens.length
  | .reply n _ purpose _ =>
    n < s.requests.length ∧ (purpose.isCompletion = true ∨ purpose = .signatureHelp)

/-- What is outstanding is cancelled by a reset, once. -/
theorem Remembers.reset_cancels {s : Session} (h : Remembers s) {reason : CancelReason}
    (ht : Coherent (s.reset reason)) {n : Nat} {r : Request} (ho : s.Outstanding n r)
    (hp : r.purpose.isCompletion = true ∨ r.purpose = .signatureHelp) :
    s.cancels.count n = 0 ∧
      (s.reset reason).cancels.count n = (if s.cancellable then 1 else 0) := by
  have hpend : s.helpPending? r.server = some n ∨ s.pending? r.server = some n := by
    rcases hp with hp | hp
    · obtain ⟨c, hc, hn⟩ := h.completion ho hp
      exact .inr (by rw [pending?, hc]; exact hn)
    · obtain ⟨g, hg, hn⟩ := h.help n r ho hp
      exact .inl (by rw [helpPending?, hg]; exact hn)
  obtain ⟨q, hq, _, hh⟩ := s.reset_requests reason ho.sent hpend
  constructor
  · rw [h.coherent.accounts.runs, ho.sent, Option.map_some, h.handle n r ho.sent ho.live]
    exact s.freshHandle_runs
  · rw [ht.accounts.runs, hq, Option.map_some, hh, h.handle n r ho.sent ho.live, freshHandle]
    split <;> rfl

/-- In every run, a reset leaves nothing under way: all timers are dropped, and whatever is outstanding
is cancelled once. Whatever stems from before, waiting already or arriving later, is passed over from
then on, and a second reset does nothing. -/
theorem reset_isBarrier (setup : Setup) (past later : List Action) (o : Operation)
    (ho : (setup.session.after past).Resets o) :
    let s := setup.session.after past
    let t := (s.apply o).1
    let u := t.after later
    (t.activity = .idle ∧ t.completionTimer = none ∧ t.signatureTimer = none ∧ t.round = none ∧
      t.signatureRound = none) ∧
    (t.lastRequest = none ∧ t.isIncomplete = false ∧ t.suppressDone = false ∧
      t.expandSnippet = false ∧ t.tracked = s.tracked) ∧
    (∀ n r, s.Outstanding n r → (r.purpose.isCompletion = true ∨ r.purpose = .signatureHelp) →
      s.cancels.count n = 0 ∧ t.cancels.count n = (if s.cancellable then 1 else 0)) ∧
    (∀ place m, u.queue[place]? = some m → s.Caused m → u.PassesOver place) ∧
    (∀ n r reply, n < s.requests.length → u.requests[n]? = some r →
      (r.purpose.isCompletion = true ∨ r.purpose = .signatureHelp) →
      (u.answer n reply).queue = u.queue) ∧
    ∀ again, t.Resets again → (t.apply again).1 = t := by
  intro s t u
  obtain ⟨reason, hreset⟩ := ho.apply_eq
  have ht : t = s.reset reason := hreset
  have hrun : t = setup.session.after (past ++ [.perform ⟨o, ho.direct⟩]) := by
    rw [after_concat]
    rfl
  have hmem : Remembers t := hrun ▸ after_remembers setup _
  have htime : Timely t := hrun ▸ after_timely setup _
  have hu : Remembers u := by
    have h := after_remembers setup (past ++ [.perform ⟨o, ho.direct⟩] ++ later)
    rwa [after_append, ← hrun] at h
  have hf := s.reset_frame reason
  rw [← ht] at hf
  have hround : t.round = none := by rw [hf]
  have hhelp : t.signatureRound = none := by rw [hf]
  have hquit : Quit s.requests.length u := by
    have h := Quit.of_idle hmem hround hhelp
    rw [← sent_length, ht, reset_sent, sent_length, ← ht] at h
    exact h.after later
  refine ⟨⟨?_, ?_, ?_, hround, hhelp⟩, ⟨?_, ?_, ?_, ?_, ?_⟩, ?_, ?_, ?_, ?_⟩
  · rw [hf]
    rfl
  · rw [hf]
  · rw [hf]
  · rw [hf]
  · rw [hf]
  · rw [hf]
  · rw [hf]
  · rw [hf]
  · intro n r hr hp
    rw [ht]
    exact (after_remembers setup past).reset_cancels (ht ▸ hmem.coherent) hr hp
  · intro place m hm hc
    cases m with
    | timer kind serial =>
      have hserial : serial < t.tokens.length := by rw [ht, reset_tokens_length]; exact hc
      have hnone (k : TimerKind) (timer : Timer) (ha : t.armed? k = some timer) :
          timer.serial ≠ serial := by
        rw [hf] at ha
        cases k <;> cases ha
      exact (after_dead (htime.dead hserial hnone) later).passesOver hm
    | reply n server purpose reply => exact hquit.passesOver hu hm hc.1 hc.2
  · intro n r reply hn hr hp
    exact hquit.answer_queue hn hr hp reply
  · intro again hagain
    obtain ⟨other, he⟩ := hagain.apply_eq
    rw [he, ht, reset_reset]

/-- A server was asked for completions, and its answer waits to be handled. -/
def waitingAnswer : Setup × List Action :=
  ({ config := {}, uri := "file:///a", lines := [[]], cursor := ⟨0, 0⟩, missing := [],
     signatureView := true, snippets := [], matcher := ⟨fun _ _ => true⟩, commands := none,
     cancellable := true },
   [.attach ⟨1⟩ { completion := some {} } {}, .triggerCompletion,
    .respond (.number 0) (.ok (.arr []))])

/-- The user leaves insertion and asks again, and only then the answer is handled. -/
theorem reset_isBarrier_waitingAnswer :
    let t := ((waitingAnswer.1.session.after waitingAnswer.2).apply .insertLeave).1
    let u := t.after [.triggerCompletion]
    t.cancels.count 0 = 1 ∧ (∃ m, u.queue[0]? = some m) ∧ u.PassesOver 0 := by
  intro t u
  obtain ⟨_, _, hcancel, hpass, _⟩ := reset_isBarrier waitingAnswer.1 waitingAnswer.2
    [.triggerCompletion] .insertLeave trivial
  have hm : u.queue[0]? = some (.reply 0 ⟨1⟩ (.completion ⟨1⟩) (.ok (.arr []))) := rfl
  have hc := hcancel 0 ⟨⟨1⟩, .completion ⟨1⟩, true, false, .cancellable⟩
    ⟨rfl, rfl, .inr (by decide)⟩ (.inl rfl)
  exact ⟨hc.2, ⟨_, hm⟩, hpass 0 _ hm ⟨by decide, .inl rfl⟩⟩

end Autocomplete.Session

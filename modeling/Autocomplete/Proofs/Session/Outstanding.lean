import Autocomplete.Proofs.Session.HeldText
import Autocomplete.Proofs.Session.History

/-! Requests whose answers the session still waits for. Each of them is remembered where it belongs: it
is pending in the round of completion or of signature help, or the accepted item is held for it. -/
namespace Autocomplete

theorem Table.contains_erase {κ ν : Type} [DecidableEq κ] [LT κ] {t : Table κ ν} {k j : κ} :
    (t.erase k).contains j = true ↔ k ≠ j ∧ t.contains j = true := by
  rw [contains, find?_erase, contains]
  split
  next h => simp [h]
  next h => simp [h]

theorem Table.contains_insert {κ ν : Type} [DecidableEq κ] [LE κ] [LT κ] [DecidableLT κ]
    [Std.IsLinearOrder κ] [Std.LawfulOrderLT κ] {t : Table κ ν} {k j : κ} {v : ν} :
    (t.insert k v).contains j = true ↔ k = j ∨ t.contains j = true := by
  rw [contains, find?_insert, contains]
  split
  next h => simp [h]
  next h => simp [h]

namespace Session

/-- The answer to a request is wanted, and it has not arrived or waits to be handled. -/
structure Outstanding (s : Session) (n : Nat) (r : Request) : Prop where
  sent : s.requests[n]? = some r
  live : r.live = true
  unhandled : r.awaiting = true ∨ n ∈ s.waiting.map (·.1)

/-- The round of signature help waits for the answer to a request. -/
def HelpPending (s : Session) (server : ServerId) (n : Nat) : Prop :=
  ∃ g, s.signatureRound = some g ∧ g.pending.find? server = some n

/-- The accepted item is held until a request is answered. -/
def Resolving (s : Session) (server : ServerId) (n : Nat) : Prop :=
  ∃ p, s.resolve = some p ∧ p.payload.server = server ∧ p.number = n

/-- Requests that are outstanding afterwards were outstanding before, or are new. -/
structure Asks (new : ServerId → Purpose → Nat → Prop) (s t : Session) : Prop where
  handle : ∀ (n : Nat) r, t.requests[n]? = some r → r.live = true → r.handle = s.freshHandle ∨
    ∃ q, s.requests[n]? = some q ∧ q.live = true ∧ q.handle = r.handle
  outstanding : ∀ n r, t.Outstanding n r → new r.server r.purpose n ∨
    ∃ q, s.Outstanding n q ∧ q.server = r.server ∧ q.purpose = r.purpose
  cancellable : t.cancellable = s.cancellable

/-- No request becomes outstanding. -/
abbrev AsksNothing : Session → Session → Prop := Asks fun _ _ _ => False

namespace Asks

variable {new more : ServerId → Purpose → Nat → Prop} {s t u : Session}

theorem freshHandle_eq (h : Asks new s t) : t.freshHandle = s.freshHandle := by
  rw [freshHandle, freshHandle, h.cancellable]

theorem trans (h : Asks new s t) (g : Asks new t u) : Asks new s u where
  handle n r hr hl := by
    rcases g.handle n r hr hl with hf | ⟨q, hq, hql, hqh⟩
    · exact .inl (hf.trans h.freshHandle_eq)
    · rw [← hqh]
      exact h.handle n q hq hql
  outstanding n r ho := by
    rcases g.outstanding n r ho with hn | ⟨q, hq, hs, hp⟩
    · exact .inl hn
    · rw [← hs, ← hp]
      exact h.outstanding n q hq
  cancellable := g.cancellable.trans h.cancellable

theorem mono (h : Asks new s t) (hn : ∀ x p n, new x p n → more x p n) : Asks more s t :=
  ⟨h.handle, fun n r ho => (h.outstanding n r ho).imp_left (hn _ _ _), h.cancellable⟩

/-- Some requests may change, but not what they are about and whom they were sent to. -/
theorem of_update {g : Nat → Request → Request}
    (hr : ∀ n, t.requests[n]? = s.requests[n]?.map (g n))
    (hg : ∀ n r, (g n r).live = true → r.live = true ∧ (g n r).server = r.server ∧
      (g n r).purpose = r.purpose ∧ (g n r).handle = r.handle ∧
      ((g n r).awaiting = true → r.awaiting = true))
    (hw : ∀ n ∈ t.waiting.map (·.1), n ∈ s.waiting.map (·.1) ∨
      ∃ r, s.requests[n]? = some r ∧ r.awaiting = true)
    (hc : t.cancellable = s.cancellable) : Asks new s t where
  handle n r ht hl := by
    rw [hr] at ht
    obtain ⟨q, hq, rfl⟩ := Option.map_eq_some_iff.mp ht
    obtain ⟨hql, _, _, hh, _⟩ := hg n q hl
    exact .inr ⟨q, hq, hql, hh.symm⟩
  outstanding n r ho := by
    have ht := ho.sent
    rw [hr] at ht
    obtain ⟨q, hq, rfl⟩ := Option.map_eq_some_iff.mp ht
    obtain ⟨hql, hs, hp, _, ha⟩ := hg n q ho.live
    refine .inr ⟨q, ⟨hq, hql, ?_⟩, hs.symm, hp.symm⟩
    rcases ho.unhandled with haw | hm
    · exact .inl (ha haw)
    · rcases hw n hm with hm | ⟨p, hp, haw⟩
      · exact .inr hm
      · obtain rfl := Option.some.inj (hq.symm.trans hp)
        exact .inl haw
  cancellable := hc

theorem of_eq (hr : t.requests = s.requests) (hw : t.waiting = s.waiting)
    (hc : t.cancellable = s.cancellable) : Asks new s t :=
  of_update (g := fun _ r => r) (fun n => by simp [hr])
    (fun _ _ hl => ⟨hl, rfl, rfl, rfl, id⟩) (fun n hm => .inl (hw ▸ hm)) hc

theorem same (h : Asks new s t) (hr : u.requests = t.requests) (hw : u.waiting = t.waiting)
    (hc : u.cancellable = t.cancellable) : Asks new s u := h.trans (of_eq hr hw hc)

theorem forget (s : Session) (n : Nat) : Asks new s (s.forget n) := by
  refine of_update (s.forget_requests n) (fun k r hl => ?_) (fun _ hm => .inl hm) rfl
  split at hl
  · exact Bool.noConfusion hl
  next hk =>
    rw [if_neg hk]
    exact ⟨hl, rfl, rfl, rfl, id⟩

theorem cancel (s : Session) (n : Nat) : Asks new s (s.cancel n) := by
  have hf := s.cancel_frame n
  refine of_update (s.cancel_requests n) (fun k r hl => ?_) (fun _ hm => .inl ?_) (by rw [hf])
  · split at hl
    · exact Bool.noConfusion hl
    next hk =>
      rw [if_neg hk]
      exact ⟨hl, rfl, rfl, rfl, id⟩
  · rw [hf] at hm
    exact hm

theorem foldl {f : Session → Nat → Session} (hf : ∀ s n, Asks new s (f s n)) (ns : List Nat)
    (s : Session) : Asks new s (ns.foldl f s) := by
  induction ns generalizing s with
  | nil => exact of_eq rfl rfl rfl
  | cons n ns ih => exact (hf s n).trans (ih (f s n))

theorem cancelAll (s : Session) (asked : List Nat) (pending : ServerMap Nat) :
    Asks new s (s.cancelAll asked pending) :=
  (foldl forget asked s).trans (foldl cancel pending.values _)

theorem answer (s : Session) (n : Nat) (reply : Reply) : Asks new s (s.answer n reply) := by
  have hf := s.answer_frame n reply
  refine of_update (fun k => s.answer_requests n k reply) (fun k r hl => ?_) (fun k hm => ?_)
    (by rw [hf])
  · split at hl
    next hk =>
      rw [if_pos hk]
      exact ⟨hl, rfl, rfl, rfl, fun ha => Bool.noConfusion ha⟩
    next hk =>
      rw [if_neg hk]
      exact ⟨hl, rfl, rfl, rfl, id⟩
  · rcases s.answer_waiting n reply with hw | ⟨r, hr, ha, hw⟩
    · exact .inl (hw ▸ hm)
    · rw [hw, List.map_append] at hm
      rcases List.mem_append.mp hm with hm | hm
      · exact .inl hm
      · obtain rfl : k = n := by simpa using hm
        exact .inr ⟨r, hr, ha⟩

theorem discard (s : Session) (place : Nat) :
    Asks new s { s with queue := s.queue.eraseIdx place } := by
  have hw : List.Sublist ({ s with queue := s.queue.eraseIdx place } : Session).waiting s.waiting :=
    (List.eraseIdx_sublist s.queue place).filterMap _
  exact of_update (g := fun _ r => r) (fun n => by simp)
    (fun _ _ hl => ⟨hl, rfl, rfl, rfl, id⟩) (fun n hm => .inl ((hw.map _).subset hm)) rfl

theorem post (s : Session) (server : ServerId) (purpose : Purpose) (params : Json) :
    Asks (fun x p n => x = server ∧ p = purpose ∧ n = s.requests.length) s
      (s.post server purpose params) where
  handle n r hr hl := by
    rw [post_requests] at hr
    split at hr
    · obtain rfl := Option.some.inj hr
      exact .inl rfl
    · exact .inr ⟨r, hr, hl, rfl⟩
  outstanding n r ho := by
    have hr := ho.sent
    rw [post_requests] at hr
    split at hr
    next hn =>
      obtain rfl := Option.some.inj hr
      exact .inl ⟨rfl, rfl, hn⟩
    · exact .inr ⟨r, ⟨hr, ho.live, ho.unhandled⟩, rfl, rfl⟩
  cancellable := rfl

theorem send (s : Session) (server : ServerId) (purpose : Purpose) (params : Json) :
    Asks (fun x p n => x = server ∧ p = purpose ∧ n = s.requests.length) s
      (s.send server purpose params).1 := by
  have hp := post s server purpose params
  rcases (s.send_eq server purpose params).2 with h | ⟨reply, h⟩
  · exact h ▸ hp
  · rw [h]
    exact hp.trans (answer _ _ reply)

theorem askAll (purpose : Purpose) (params : Session → Binding → Json) (bs : List Binding)
    (s : Session) :
    Asks (fun x p n => p = purpose ∧ (x, n) ∈ (Session.askAll purpose params s bs).2) s
      (Session.askAll purpose params s bs).1 := by
  refine askAll_induction purpose params
    (P := fun t asked => Asks (fun x p n => p = purpose ∧ (x, n) ∈ asked) s t)
    (fun t asked server json ht => ?_) bs s [] (of_eq rfl rfl rfl)
  have hs := send t server purpose json
  refine (ht.mono fun x p n h => ?_).trans (hs.mono fun x p n h => ?_)
  · exact ⟨h.1, List.mem_append_left _ h.2⟩
  · obtain ⟨rfl, hp, rfl⟩ := h
    exact ⟨hp, by simp⟩

end Asks

structure Remembers (s : Session) : Prop where
  coherent : Coherent s
  handle : ∀ (n : Nat) r, s.requests[n]? = some r → r.live = true → r.handle = s.freshHandle
  help : ∀ n r, s.Outstanding n r → r.purpose = .signatureHelp → s.HelpPending r.server n
  resolve : ∀ n r, s.Outstanding n r → r.purpose = .resolve → s.Resolving r.server n
  asked : ∀ g server n, s.signatureRound = some g → g.pending.find? server = some n →
    s.bindings.contains server = true ∧ g.replies.find? server = none

theorem remembers_setup (setup : Setup) : Remembers setup.session where
  coherent := coherent_setup setup
  handle n r hr := by cases hr
  help n r ho := by cases ho.sent
  resolve n r ho := by cases ho.sent
  asked g _ _ hg := by cases hg

namespace Remembers

variable {s t : Session}

/-- A completion request that is outstanding is pending in the round. -/
theorem completion (h : Remembers s) {n : Nat} {r : Request} (ho : s.Outstanding n r)
    (hp : r.purpose.isCompletion = true) : s.Pending r.server n := by
  cases h.coherent.accounts.settled n r ho.sent hp with
  | pending hp => exact hp
  | answered _ _ _ ha hn =>
    rcases ho.unhandled with haw | hm
    · rw [ha] at haw
      exact Bool.noConfusion haw
    · exact absurd hm hn
  | cancelled _ _ hd =>
    have hl := ho.live
    rw [hd] at hl
    exact Bool.noConfusion hl

/-- The message of a request that the session still cares for holds the answer to one that is
outstanding. -/
theorem outstanding_of_live (h : Remembers s) {place n : Nat} {server : ServerId}
    {purpose : Purpose} {reply : Reply}
    (hm : s.queue[place]? = some (.reply n server purpose reply))
    (hl : s.isLive (.reply n server purpose reply) = true) :
    ∃ r, s.Outstanding n r ∧ r.server = server ∧ r.purpose = purpose ∧ r.awaiting = false := by
  have hw : (n, server, purpose) ∈ s.waiting :=
    List.mem_filterMap.mpr ⟨_, List.mem_of_getElem? hm, rfl⟩
  obtain ⟨r, hr, hs, hp, ha⟩ := h.coherent.accounts.waiting n server purpose hw
  have hlive : r.live = true := by simpa [isLive, hr] using hl
  exact ⟨r, ⟨hr, hlive, .inr (List.mem_map.mpr ⟨_, hw, rfl⟩)⟩, hs, hp, ha⟩

/-- Once its message was taken from the queue, a request is not outstanding any more. -/
theorem not_outstanding_discard (h : Remembers s) {place n : Nat} {server : ServerId}
    {purpose : Purpose} {reply : Reply}
    (hm : s.queue[place]? = some (.reply n server purpose reply)) (r : Request) :
    ¬ Outstanding { s with queue := s.queue.eraseIdx place } n r := by
  intro ho
  have hw : (n, server, purpose) ∈ s.waiting :=
    List.mem_filterMap.mpr ⟨_, List.mem_of_getElem? hm, rfl⟩
  obtain ⟨q, hq, _, _, ha⟩ := h.coherent.accounts.waiting n server purpose hw
  obtain rfl := Option.some.inj (ho.sent.symm.trans hq)
  rcases ho.unhandled with haw | hn
  · rw [ha] at haw
    exact Bool.noConfusion haw
  · exact waiting_discard h.coherent.accounts.single hm hn

theorem step {new : ServerId → Purpose → Nat → Prop} (h : Remembers s) (ht : Coherent t)
    (ha : Asks new s t)
    (help : ∀ n r, t.Outstanding n r → r.purpose = .signatureHelp →
      new r.server .signatureHelp n ∨ s.HelpPending r.server n → t.HelpPending r.server n)
    (resolve : ∀ n r, t.Outstanding n r → r.purpose = .resolve →
      new r.server .resolve n ∨ s.Resolving r.server n → t.Resolving r.server n)
    (asked : ∀ g server n, t.signatureRound = some g → g.pending.find? server = some n →
      t.bindings.contains server = true ∧ g.replies.find? server = none) : Remembers t where
  coherent := ht
  handle n r hr hl := by
    rw [ha.freshHandle_eq]
    rcases ha.handle n r hr hl with hf | ⟨q, hq, hql, hqh⟩
    · exact hf
    · rw [← hqh]
      exact h.handle n q hq hql
  help n r ho hp := by
    refine help n r ho hp ?_
    rcases ha.outstanding n r ho with hn | ⟨q, hq, hs, hqp⟩
    · exact .inl (hp ▸ hn)
    · exact .inr (hs ▸ h.help n q hq (hqp.trans hp))
  resolve n r ho hp := by
    refine resolve n r ho hp ?_
    rcases ha.outstanding n r ho with hn | ⟨q, hq, hs, hqp⟩
    · exact .inl (hp ▸ hn)
    · exact .inr (hs ▸ h.resolve n q hq (hqp.trans hp))
  asked := asked

/-- What the session remembers stays as it is, and requests that are new are of other kinds. -/
theorem keep {new : ServerId → Purpose → Nat → Prop} (h : Remembers s) (ht : Coherent t)
    (ha : Asks new s t)
    (hn : ∀ x n, ¬ new x .signatureHelp n ∧ ¬ new x .resolve n)
    (hg : t.signatureRound = s.signatureRound) (hr : t.resolve = s.resolve)
    (hb : ∀ x, s.bindings.contains x = true → t.bindings.contains x = true) : Remembers t := by
  refine h.step ht ha (fun n r _ _ ho => ?_) (fun n r _ _ ho => ?_) fun g x n he hx => ?_
  · rw [HelpPending, hg]
    exact ho.resolve_left (hn _ _).1
  · rw [Resolving, hr]
    exact ho.resolve_left (hn _ _).2
  · obtain ⟨hx, hy⟩ := h.asked g x n (hg ▸ he) hx
    exact ⟨hb x hx, hy⟩

theorem still (h : Remembers s) (ht : Coherent t) (ha : AsksNothing s t)
    (hg : t.signatureRound = s.signatureRound) (hr : t.resolve = s.resolve)
    (hb : ∀ x, s.bindings.contains x = true → t.bindings.contains x = true) : Remembers t :=
  h.keep ht ha (fun _ _ => ⟨id, id⟩) hg hr hb

end Remembers

/-- A request that is given up is not wanted any more. -/
theorem cancelAll_dead {s : Session} {asked : List Nat} {pending : ServerMap Nat} {n : Nat}
    {r : Request} (hn : n ∈ pending.values)
    (hr : (s.cancelAll asked pending).requests[n]? = some r) : r.live = false := by
  rw [cancelAll_requests] at hr
  obtain ⟨q, _, rfl⟩ := Option.map_eq_some_iff.mp hr
  rw [if_pos hn]

theorem cancelSignatureRound_asks (s : Session) : AsksNothing s s.cancelSignatureRound := by
  unfold cancelSignatureRound
  split
  next g _ =>
    have hd : AsksNothing s { s with signatureRound := none } := .of_eq rfl rfl rfl
    exact hd.trans (.cancelAll _ g.asked g.pending)
  next => exact .of_eq rfl rfl rfl

theorem cancelSignatureRound_remembers {s : Session} (h : Remembers s) :
    Remembers s.cancelSignatureRound := by
  have hf := s.cancelSignatureRound_frame
  have ht := cancelSignatureRound_coherent h.coherent
  have ha := s.cancelSignatureRound_asks
  refine h.step ht ha (fun n r ho _ hp => ?_) (fun n r _ _ hp => ?_) fun g x n hg _ => ?_
  · -- All that was pending is given up.
    obtain ⟨g, hg, hn⟩ := hp.resolve_left id
    have hr := ho.sent
    rw [cancelSignatureRound, hg] at hr
    have hd := cancelAll_dead ((Table.mem_values_iff _ _).mpr ⟨_, hn⟩) hr
    rw [ho.live] at hd
    exact Bool.noConfusion hd
  · rw [Resolving, hf]
    exact hp.resolve_left id
  · rw [hf] at hg
    cases hg

theorem openSignatureRound_remembers {s : Session} (h : Remembers s) (trigger : Option Char)
    (hs : s.signatureRound = none) : Remembers (s.openSignatureRound trigger) := by
  have ht := openSignatureRound_coherent h.coherent trigger
  have ha := Asks.askAll .signatureHelp (fun s b => s.signatureParams trigger b)
    (s.bindings.values.filter (wantsSignature trigger)) s
  have hf := askAll_frame .signatureHelp (fun s b => s.signatureParams trigger b) s
    (s.bindings.values.filter (wantsSignature trigger))
  have hkeys := askAll_servers .signatureHelp (fun s b => s.signatureParams trigger b)
    (s.bindings.values.filter (wantsSignature trigger)) s
  have hnodup := h.coherent.nodup_servers (wantsSignature trigger)
  unfold openSignatureRound at ht ⊢
  split at ht
  next u asked hu =>
    rw [hu] at ha hf hkeys
    dsimp only at ha hf hkeys ht
    rw [← hkeys] at hnodup
    split at ht
    next hempty =>
      rw [if_pos hempty]
      obtain rfl := List.isEmpty_iff.mp hempty
      exact h.keep ht ha (fun x n => by simp) (by rw [hf]) (by rw [hf]) (by rw [hf]; simp)
    next hempty =>
      rw [if_neg hempty]
      refine h.step ht (ha.same rfl rfl rfl) (fun n r _ _ hn => ?_) (fun n r _ _ hn => ?_)
        (fun g x n hg hx => ?_)
      · rcases hn with ⟨_, hm⟩ | ⟨g, hg, _⟩
        · exact ⟨_, rfl, (Table.find?_ofList hnodup _ _).mpr hm⟩
        · rw [hs] at hg
          cases hg
      · rcases hn with ⟨hp, _⟩ | ⟨p, hp, hn⟩
        · cases hp
        · refine ⟨p, ?_, hn⟩
          change u.resolve = some p
          rw [hf]
          exact hp
      · obtain rfl := Option.some.inj hg
        refine ⟨?_, rfl⟩
        have hm := List.mem_map_of_mem (f := Prod.fst) (Table.mem_of_find?_ofList hx)
        rw [hkeys] at hm
        obtain ⟨b, hb, rfl⟩ := List.mem_map.mp hm
        obtain ⟨y, hy⟩ := (Table.mem_values_iff _ _).mp (List.mem_filter.mp hb).1
        change u.bindings.contains b.server = true
        rw [hf, h.coherent.bindings y b hy, Table.contains]
        exact Option.isSome_of_eq_some hy

theorem takeSignature_eq {s : Session} {g : SignatureRound} {server : ServerId} {n : Nat}
    (reply : Reply) (hg : s.signatureRound = some g) (hn : g.pending.find? server = some n) :
    s.takeSignature server reply =
      let d := g.record server reply
      if d.pending.isEmpty then s.finishSignatureRound d else { s with signatureRound := some d } := by
  have hc : g.pending.contains server = true := Option.isSome_of_eq_some hn
  unfold takeSignature
  simp only [hg, hc, if_true]
  rfl

theorem takeSignature_remembers {s : Session} (h : Remembers s) {place number : Nat}
    {server : ServerId} {reply : Reply}
    (hm : s.queue[place]? = some (.reply number server .signatureHelp reply))
    (hl : s.isLive (.reply number server .signatureHelp reply) = true) :
    Remembers ({ s with queue := s.queue.eraseIdx place }.takeSignature server reply) := by
  obtain ⟨q, hq, rfl, hqp, _⟩ := h.outstanding_of_live hm hl
  obtain ⟨g, hg, hn⟩ := h.help number q hq hqp
  have hgone := h.not_outstanding_discard hm
  have hd : AsksNothing s { s with queue := s.queue.eraseIdx place } :=
    .discard s place
  have ht := takeSignature_coherent (discard_coherent h.coherent place) q.server reply
  have hu : ({ s with queue := s.queue.eraseIdx place } : Session).signatureRound = some g := hg
  have hur : ({ s with queue := s.queue.eraseIdx place } : Session).resolve = s.resolve := rfl
  have hub : ({ s with queue := s.queue.eraseIdx place } : Session).bindings = s.bindings := rfl
  generalize ({ s with queue := s.queue.eraseIdx place } : Session) = u at *
  have hf := u.takeSignature_frame q.server reply
  have hround : (u.takeSignature q.server reply).signatureRound =
      if (g.record q.server reply).pending.isEmpty then none else some (g.record q.server reply) := by
    rw [takeSignature_eq reply hu hn]
    dsimp only
    split
    · rw [finishSignatureRound_frame]
    · rfl
  generalize u.takeSignature q.server reply = t at *
  have hreq : t.requests = u.requests := by rw [hf]
  have hwait : t.waiting = u.waiting := by rw [waiting, waiting, hf]
  have hfind (x : ServerId) : (g.record q.server reply).pending.find? x =
      if q.server = x then none else g.pending.find? x := Table.find?_erase ..
  refine h.step ht (hd.same hreq hwait (by rw [hf])) (fun n r ho hp hx => ?_)
    (fun n r ho hp hx => ?_) (fun e x n he hx => ?_)
  · obtain ⟨e, he, hx⟩ := hx.resolve_left id
    obtain rfl := Option.some.inj (hg.symm.trans he)
    -- The number is that of another server, whose request stays pending.
    have hne : q.server ≠ r.server := by
      intro hs
      rw [← hs, hn] at hx
      obtain rfl := Option.some.inj hx
      exact hgone r ⟨hreq ▸ ho.sent, ho.live, hwait ▸ ho.unhandled⟩
    have hpend : (g.record q.server reply).pending.find? r.server = some n := by
      rw [hfind, if_neg hne, hx]
    refine ⟨g.record q.server reply, ?_, hpend⟩
    rw [hround, if_neg]
    intro hempty
    rw [(Table.isEmpty_iff _).mp hempty] at hpend
    cases hpend
  · obtain ⟨p, hr, hx⟩ := hx.resolve_left id
    exact ⟨p, by rw [hf]; exact hur.trans hr, hx⟩
  · rw [hround] at he
    split at he
    · cases he
    · obtain rfl := Option.some.inj he
      rw [hfind] at hx
      split at hx
      · cases hx
      next hne =>
        obtain ⟨hb, hrep⟩ := h.asked g x n hg hx
        refine ⟨by rw [hf]; exact hub ▸ hb, ?_⟩
        change (g.replies.insert q.server reply).find? x = none
        rw [Table.find?_insert, if_neg hne, hrep]

/-- The request of a server that a round of signature help waits for. -/
def helpPending? (s : Session) (server : ServerId) : Option Nat :=
  s.signatureRound.bind (·.pending.find? server)

/-- The request of a server that the round of completion waits for. -/
def pending? (s : Session) (server : ServerId) : Option Nat :=
  s.round.bind (·.pending.find? server)

theorem detachFromSignature_requests (s : Session) (server : ServerId) (k : Nat) :
    (s.detachFromSignature server).requests[k]? = s.requests[k]?.map fun r =>
      if s.helpPending? server = some k then { r with live := false, handle := r.handle.cancel }
      else r := by
  rcases s.detachFromSignature_cases server with ⟨h, hn⟩ | ⟨g, n, hg, hn, h⟩
  · have hp : s.helpPending? server = none := by
      cases hg : s.signatureRound with
      | none => rw [helpPending?, hg, Option.bind_none]
      | some g => rw [helpPending?, hg, Option.bind_some, hn g hg]
    simp [h, hp]
  · have hp : s.helpPending? server = some n := by rw [helpPending?, hg, Option.bind_some, hn]
    simp only [h, hp, Option.some.injEq]
    split
    · rw [finishSignatureRound_frame]
      exact cancel_requests _ n k
    · exact cancel_requests _ n k

theorem detachFromRound_requests (s : Session) (server : ServerId) (k : Nat) :
    (s.detachFromRound server).requests[k]? = s.requests[k]?.map fun r =>
      if s.pending? server = some k then { r with live := false, handle := r.handle.cancel }
      else r := by
  unfold pending?
  cases hc : s.round with
  | none =>
    unfold detachFromRound
    rw [hc]
    simp
  | some c =>
    have hdrop : (s.dropServer c server).requests[k]? = s.requests[k]?.map fun r =>
        if c.pending.find? server = some k then
          { r with live := false, handle := r.handle.cancel } else r := by
      unfold dropServer
      dsimp only
      split
      next n hn =>
        rw [hn]
        simp only [Option.some.injEq]
        exact cancel_requests _ n k
      next hn => simp [hn]
    simp only [Option.bind_some, ← hdrop]
    rcases detachFromRound_cases hc server with he | he | ⟨he, _⟩
    · rw [he]
    · rw [he]
      rfl
    · rw [he, finishRound_frame]

theorem detach_requests (s : Session) {server : ServerId} (h : s.bindings.contains server = true)
    (k : Nat) : (s.detach server).requests[k]? = s.requests[k]?.map fun r =>
      if s.helpPending? server = some k ∨ s.pending? server = some k then
        { r with live := false, handle := r.handle.cancel }
      else r := by
  unfold detach
  rw [if_pos h]
  extract_lets u
  have hf := u.detachFromSignature_frame server
  have hp : (u.detachFromSignature server).pending? server = s.pending? server := by
    rw [pending?, hf]
    rfl
  rw [detachFromRound_requests, hp, detachFromSignature_requests]
  change (s.requests[k]?.map fun r => if s.helpPending? server = some k then _ else r).map _ = _
  rw [Option.map_map]
  congr 1
  funext r
  simp only [Function.comp_apply]
  by_cases hs : s.helpPending? server = some k
  · by_cases hr : s.pending? server = some k <;> simp [hs, hr, RequestHandle.cancel_cancel]
  · simp [hs]

/-- The round of signature help goes on without the server that is detached, unless nobody else has
to answer. -/
theorem detach_signatureRound (s : Session) {server : ServerId}
    (h : s.bindings.contains server = true) :
    (s.detach server).signatureRound = s.signatureRound.map (·.without server) ∨
      (s.detach server).signatureRound = none ∧
        ∀ g, s.signatureRound = some g → (g.without server).pending.isEmpty = true := by
  unfold detach
  rw [if_pos h]
  extract_lets u
  rw [detachFromRound_frame]
  change (u.detachFromSignature server).signatureRound = _ ∨
    (u.detachFromSignature server).signatureRound = none ∧ _
  have hu : u.signatureRound = s.signatureRound := rfl
  clear_value u
  rw [← hu]
  rcases u.detachFromSignature_cases server with ⟨he, hn⟩ | ⟨g, n, hg, _, he⟩
  · rw [he]
    cases hg : u.signatureRound with
    | none => exact .inl rfl
    | some g =>
      refine .inl (congrArg some ?_)
      simp only [SignatureRound.without, Table.erase_eq_self (hn g hg)]
  · rw [he, hg]
    dsimp only
    split
    next hempty =>
      rw [finishSignatureRound_frame]
      refine .inr ⟨rfl, fun e he => ?_⟩
      obtain rfl := Option.some.inj he
      exact hempty
    next =>
      rw [cancel_frame]
      exact .inl rfl

theorem detach_asks (s : Session) (server : ServerId) : AsksNothing s (s.detach server) := by
  by_cases hs : s.bindings.contains server = true
  case neg => exact .of_eq (by simp [detach, hs]) (by simp [detach, hs]) (by simp [detach, hs])
  have hf := s.detach_frame server
  have hw : (s.detach server).waiting = s.waiting := by rw [waiting, waiting, hf]
  refine .of_update (s.detach_requests hs) (fun k r hl => ?_) (fun k hm => .inl (hw ▸ hm))
    (by rw [hf])
  split at hl
  · exact Bool.noConfusion hl
  next hk =>
    rw [if_neg hk]
    exact ⟨hl, rfl, rfl, rfl, id⟩

theorem detach_remembers {s : Session} (h : Remembers s) (server : ServerId) :
    Remembers (s.detach server) := by
  by_cases hs : s.bindings.contains server = true
  case neg =>
    have he : s.detach server = s := by simp [detach, hs]
    rwa [he]
  have hf := s.detach_frame server
  have hreq := s.detach_requests hs
  have hround := s.detach_signatureRound hs
  have hbind : (s.detach server).bindings = s.bindings.erase server := by
    unfold detach
    rw [if_pos hs, detachFromRound_frame, detachFromSignature_frame]
    rfl
  have ht := detach_coherent h.coherent server
  have ha := s.detach_asks server
  generalize s.detach server = t at *
  have hfind (g : SignatureRound) (x : ServerId) : (g.without server).pending.find? x =
      if server = x then none else g.pending.find? x := Table.find?_erase ..
  refine h.step ht ha (fun n r ho hp hx => ?_) (fun n r ho hp hx => ?_) (fun e x n he hx => ?_)
  · obtain ⟨g, hg, hx⟩ := hx.resolve_left id
    -- The request of the server itself is given up.
    have hne : server ≠ r.server := by
      intro he
      have hq := ho.sent
      rw [hreq] at hq
      obtain ⟨q, _, hq⟩ := Option.map_eq_some_iff.mp hq
      have hpend : s.helpPending? server = some n := by
        rw [helpPending?, hg, he]
        exact hx
      rw [if_pos (.inl hpend)] at hq
      have hl := ho.live
      rw [← hq] at hl
      exact Bool.noConfusion hl
    have hpend : (g.without server).pending.find? r.server = some n := by
      rw [hfind, if_neg hne, hx]
    rcases hround with hround | ⟨_, hempty⟩
    · exact ⟨_, by rw [hround, hg]; rfl, hpend⟩
    · rw [(Table.isEmpty_iff _).mp (hempty g hg)] at hpend
      cases hpend
  · obtain ⟨p, hr, hx⟩ := hx.resolve_left id
    exact ⟨p, by rw [hf]; exact hr, hx⟩
  · rcases hround with hround | ⟨hround, _⟩
    · rw [hround] at he
      obtain ⟨g, hg, rfl⟩ := Option.map_eq_some_iff.mp he
      rw [hfind] at hx
      split at hx
      · cases hx
      next hne =>
        obtain ⟨hb, hrep⟩ := h.asked g x n hg hx
        exact ⟨hbind ▸ Table.contains_erase.mpr ⟨hne, hb⟩, hrep⟩
    · rw [hround] at he
      cases he

theorem giveUpRound_asks (s : Session) (reason : CancelReason) :
    AsksNothing s (s.giveUpRound reason) := by
  unfold giveUpRound
  split
  next c _ =>
    have hn : AsksNothing s { s with round := none } := .of_eq rfl rfl rfl
    exact (hn.trans (.cancelAll _ c.asked c.pending)).same rfl rfl rfl
  next => exact .of_eq rfl rfl rfl

theorem openRound_asks (s : Session) (trigger : Trigger) :
    Asks (fun _ p n => p.isCompletion = true ∧ s.requests.length ≤ n) s (s.openRound trigger) := by
  have hs : Asks (fun _ p n => p.isCompletion = true ∧ s.requests.length ≤ n) s
      { s with lastId := s.lastId.next } := .of_eq rfl rfl rfl
  have ha := Asks.askAll (.completion s.lastId.next) (fun s b => s.completionParams trigger b)
    (s.bindings.values.filter (·.completes)) { s with lastId := s.lastId.next }
  have hn := (askAll_requests (.completion s.lastId.next) (fun s b => s.completionParams trigger b)
    { s with lastId := s.lastId.next } (s.bindings.values.filter (·.completes))).2
  have hu := hs.trans (ha.mono fun x p n he => ⟨by rw [he.1]; rfl, (hn x n he.2).1⟩)
  unfold openRound
  dsimp only
  generalize askAll (.completion s.lastId.next) (fun s b => s.completionParams trigger b)
    { s with lastId := s.lastId.next } (s.bindings.values.filter (·.completes)) = result at hu ⊢
  split
  · exact hu.same rfl rfl rfl
  · exact hu.same rfl rfl rfl

theorem Change.remembers {s t : Session} (hc : Change s t) (h : Remembers s) : Remembers t := by
  have ht := hc.coherent h.coherent
  have hr := hc.resolve_eq
  have hcanc := hc.cancellable_eq
  have still (hq : t.requests = s.requests) (hw : t.waiting = s.waiting)
      (hg : t.signatureRound = s.signatureRound) (hb : t.bindings = s.bindings) : Remembers t :=
    h.still ht (.of_eq hq hw hcanc) hg hr (fun _ hx => hb ▸ hx)
  cases hc with
  | report => 
    have hf := s.report_frame .warning
    exact still (by rw [hf]) (by rw [hf]; rfl) (by rw [hf]) (by rw [hf])
  | elapse ms =>
    have hs := elapse_silent s ms
    exact still hs.books.requests hs.books.waiting hs.signatureRound rfl
  | registerCommand server command reaction =>
    have hf := s.registerCommand_frame server command reaction
    refine h.still ht (.of_eq (by rw [hf]) (by rw [hf]; rfl) hcanc) (by rw [hf]) hr ?_
    intro x hx
    unfold Session.registerCommand
    split
    · exact Table.contains_insert.mpr (.inr hx)
    · exact hx
  | giveUpRound reason =>
    have hf := s.giveUpRound_frame reason
    exact h.still ht (giveUpRound_asks s reason) (by rw [hf]) hr
      (by rw [hf]; exact fun _ hx => hx)
  | openRound trigger =>
    have hf := s.openRound_frame trigger
    exact h.keep ht (openRound_asks s trigger) (fun _ _ => by simp [Purpose.isCompletion])
      (by rw [hf]) hr
      (by rw [hf]; exact fun _ hx => hx)
  | cancelSignatureRound => exact cancelSignatureRound_remembers h
  | openSignatureRound trigger hs => exact openSignatureRound_remembers h trigger hs
  | takeSignature place number server reply hm live => exact takeSignature_remembers h hm live
  | sendCommand server name params =>
    have hf := s.send_frame server (.command name) params
    exact h.keep ht (.send s server (.command name) params) (fun x n => by simp) (by rw [hf]) hr
      (by rw [hf]; exact fun _ hx => hx)
  | answer n reply =>
    have hf := s.answer_frame n reply
    exact h.still ht (.answer s n reply)
      (by rw [hf]) hr (by rw [hf]; exact fun _ hx => hx)
  | discard place =>
    exact h.still ht (.discard s place) rfl rfl
      fun _ hx => hx
  | _ => exact still rfl rfl rfl rfl

theorem supersedeResolve_asks (s : Session) : AsksNothing s s.supersedeResolve := by
  unfold supersedeResolve
  split
  next p _ =>
    have hl : AsksNothing s
        { s.log .debug "accept" "Superseding pending resolve" with resolve := none } :=
      .of_eq rfl rfl rfl
    exact hl.trans (.cancel _ p.number)
  next => exact .of_eq rfl rfl rfl

theorem supersedeResolve_remembers {s : Session} (h : Remembers s) :
    Remembers s.supersedeResolve := by
  have hf := s.supersedeResolve_frame
  have ht := supersedeResolve_coherent h.coherent
  have hreq (n : Nat) (r : Request) (hr : s.supersedeResolve.requests[n]? = some r)
      (hl : r.live = true) (hp : ∃ p, s.resolve = some p ∧ p.number = n) : False := by
    obtain ⟨p, hp, rfl⟩ := hp
    unfold supersedeResolve at hr
    rw [hp] at hr
    dsimp only at hr
    rw [cancel_requests] at hr
    obtain ⟨q, _, rfl⟩ := Option.map_eq_some_iff.mp hr
    rw [if_pos rfl] at hl
    exact Bool.noConfusion hl
  have ha := s.supersedeResolve_asks
  refine h.step ht ha (fun n r _ _ hx => ?_) (fun n r ho _ hx => ?_) (fun g x n hg hx => ?_)
  · rw [HelpPending, hf]
    exact hx.resolve_left id
  · obtain ⟨p, hp, _, hn⟩ := hx.resolve_left id
    exact (hreq n r ho.sent ho.live ⟨p, hp, hn⟩).elim
  · rw [hf] at hg ⊢
    exact h.asked g x n hg hx

theorem sendResolve_remembers {s : Session} (h : Remembers s) (payload : Payload)
    (expansion : Option Expansion) (hs : s.resolve = none) :
    Remembers (s.sendResolve payload expansion) := by
  have hf := s.send_frame payload.server .resolve payload.item.encode
  have hn := (s.send_eq payload.server .resolve payload.item.encode).1
  have ha := Asks.send s payload.server .resolve payload.item.encode
  have ht := sendResolve_coherent h.coherent payload expansion
  unfold sendResolve at ht ⊢
  generalize s.send payload.server .resolve payload.item.encode = result at *
  obtain ⟨u, number⟩ := result
  dsimp only at hf hn ha ht ⊢
  refine h.step ht (ha.same rfl rfl rfl) (fun n r _ _ hx => ?_) (fun n r _ _ hx => ?_)
    (fun g x n hg hx => ?_)
  · obtain ⟨g, hg, hx⟩ := hx.resolve_left fun hx => nomatch hx.2.1
    refine ⟨g, ?_, hx⟩
    change u.signatureRound = some g
    rw [hf]
    exact hg
  · rcases hx with ⟨hx, _, he⟩ | ⟨p, hp, _⟩
    · exact ⟨_, rfl, hx.symm, hn.trans he.symm⟩
    · rw [hs] at hp
      cases hp
  · change u.signatureRound = some g at hg
    change u.bindings.contains x = true ∧ _
    rw [hf] at hg ⊢
    exact h.asked g x n hg hx

/-- The message that is taken up holds the answer for which the accepted item was held. -/
theorem takeUp_remembers {s : Session} (h : Remembers s) {place number : Nat} {server : ServerId}
    {reply : Reply} (hm : s.queue[place]? = some (.reply number server .resolve reply))
    (hl : s.isLive (.reply number server .resolve reply) = true) :
    Remembers { s with queue := s.queue.eraseIdx place, resolve := none } := by
  obtain ⟨q, hq, _, hqp, _⟩ := h.outstanding_of_live hm hl
  obtain ⟨p, hp, _, hn⟩ := h.resolve number q hq hqp
  have hgone := h.not_outstanding_discard hm
  have hd : AsksNothing s { s with queue := s.queue.eraseIdx place } :=
    .discard s place
  have ht := (discard_coherent h.coherent place).dropResolve
  refine h.step ht (hd.same rfl rfl rfl) (fun n r _ _ hx => hx.resolve_left id)
    (fun n r ho _ hx => ?_) h.asked
  obtain ⟨e, he, _, hx⟩ := hx.resolve_left id
  obtain rfl := Option.some.inj (hp.symm.trans he)
  obtain rfl := hn.symm.trans hx
  exact (hgone r ⟨ho.sent, ho.live, ho.unhandled⟩).elim

theorem TextChange.remembers {s t : Session} (hc : TextChange s t) (h : Remembers s) :
    Remembers t := by
  have ht := hc.coherent h.coherent
  have hcanc := hc.round_eq.2.2.2
  have still (hq : t.requests = s.requests) (hw : t.waiting = s.waiting)
      (hg : t.signatureRound = s.signatureRound) (hr : t.resolve = s.resolve)
      (hb : t.bindings = s.bindings) : Remembers t :=
    h.still ht (.of_eq hq hw hcanc) hg hr (fun _ hx => hb ▸ hx)
  cases hc with
  | supersedeResolve => exact supersedeResolve_remembers h
  | removeInsertedWord => exact still rfl rfl rfl rfl rfl
  | sendResolve payload expansion hs _ => exact sendResolve_remembers h payload expansion hs
  | takeUp place number server reply hm live => exact takeUp_remembers h hm live
  | conclude => exact still rfl rfl rfl rfl rfl
  | expand e =>
    have hf := s.expand_frame e
    exact still (by rw [hf]) (by rw [waiting, waiting, hf]) (by rw [hf]) (by rw [hf]) (by rw [hf])

theorem RoundChange.remembers {s t : Session} (hc : RoundChange s t) (h : Remembers s) :
    Remembers t := by
  have ht := hc.coherent h.coherent
  cases hc with
  | attach server capabilities options =>
    have hf := s.attach_frame server capabilities options
    refine h.still ht (.of_eq (by rw [hf]) (by rw [waiting, waiting, hf]) (by rw [hf]))
      (by rw [hf]) (by rw [hf]) (fun x hx => ?_)
    rw [hf]
    exact Table.contains_insert.mpr (.inr hx)
  | detach server => exact detach_remembers h server
  | takeCompletion place n server round reply =>
    have hf := takeCompletion_frame { s with queue := s.queue.eraseIdx place } round server reply
    have hd : AsksNothing s { s with queue := s.queue.eraseIdx place } :=
      .discard s place
    exact h.still ht (hd.same (by rw [hf]) (by rw [waiting, waiting, hf]) (by rw [hf]))
      (by rw [hf]) (by rw [hf]) (by rw [hf]; exact fun _ hx => hx)

theorem after_remembers (setup : Setup) (actions : List Action) :
    Remembers (setup.session.after actions) :=
  after_induction (fun _ _ hc h => hc.remembers h) (fun _ _ hc h => hc.remembers h)
    (fun _ _ hc h => hc.remembers h) (remembers_setup setup) actions

end Session
end Autocomplete

import Autocomplete.Proofs.Session.Trace

/-! The accounts of completion requests. A request is pending, answered or cancelled; `Accounts` says
what is known about it in each case, for any notion of which requests are pending, since that changes
before a round is stored and after it was taken away. -/
namespace Autocomplete

/-- The number of a completion request that is sent. -/
def Observation.asked? : Observation → Option Nat
  | .call (.request n _ .completion _) => some n
  | _ => none

/-- The number of a request that is cancelled where it was sent. -/
def Observation.cancelled? : Observation → Option Nat
  | .call (.cancel n) => some n
  | _ => none

/-- The number of a request whose answer is put into a round. -/
def Observation.recorded? : Observation → Option Nat
  | .note (.recorded n _ _) => some n
  | _ => none

/-- The request whose answer a message holds. -/
def Message.answered? : Message → Option (Nat × ServerId × Purpose)
  | .reply n server purpose _ => some (n, server, purpose)
  | .timer .. => none

def Purpose.isCompletion : Purpose → Bool
  | .completion _ => true
  | _ => false

namespace Session
open Observation

def asked (s : Session) : List Nat := s.trace.filterMap asked?

def cancels (s : Session) : List Nat := s.trace.filterMap cancelled?

def recorded (s : Session) : List Nat := s.trace.filterMap recorded?

/-- The requests whose answers wait to be handled. -/
def waiting (s : Session) : List (Nat × ServerId × Purpose) := s.queue.filterMap Message.answered?

theorem asked?_eq_none {o : Observation} (h : o.kind ≠ .asking) : o.asked? = none := by
  cases o with
  | call c =>
    cases c with
    | request n server method => cases method <;> simp_all [kind, asked?]
    | _ => rfl
  | _ => rfl

theorem cancelled?_eq_none {o : Observation} (h : o.kind ≠ .cancel) : o.cancelled? = none := by
  cases o with
  | call c => cases c <;> simp_all [kind, cancelled?]
  | _ => rfl

theorem recorded?_eq_none {o : Observation} (h : o.kind ≠ .recorded) : o.recorded? = none := by
  cases o with
  | note n => cases n <;> simp_all [kind, recorded?]
  | _ => rfl

namespace Adds

variable {kinds : List Kind} {s t : Session}

theorem asked_eq (h : Adds kinds s t) (hk : Kind.asking ∉ kinds) : t.asked = s.asked :=
  h.filterMap_eq fun _ ho => asked?_eq_none fun he => hk (he ▸ ho)

theorem cancels_eq (h : Adds kinds s t) (hk : Kind.cancel ∉ kinds) : t.cancels = s.cancels :=
  h.filterMap_eq fun _ ho => cancelled?_eq_none fun he => hk (he ▸ ho)

theorem recorded_eq (h : Adds kinds s t) (hk : Kind.recorded ∉ kinds) : t.recorded = s.recorded :=
  h.filterMap_eq fun _ ho => recorded?_eq_none fun he => hk (he ▸ ho)

end Adds

/-- What is known about a completion request, depending on whether it is pending. -/
inductive Settled (s : Session) (n : Nat) (r : Request) : Prop → Prop where
  | pending {p : Prop} (hp : p) (unanswered : n ∉ s.recorded) (handle : r.handle = s.freshHandle) :
      Settled s n r p
  | answered {p : Prop} (hp : ¬ p) (recorded : n ∈ s.recorded) (handle : r.handle = s.freshHandle)
      (arrived : r.awaiting = false) (handled : n ∉ s.waiting.map (·.1)) : Settled s n r p
  | cancelled {p : Prop} (hp : ¬ p) (unanswered : n ∉ s.recorded) (dead : r.live = false)
      (handle : r.handle = s.freshHandle.cancel) : Settled s n r p

structure Accounts (pend : ServerId → Nat → Prop) (s : Session) : Prop where
  asked : ∀ n ∈ s.asked, ∃ r, s.requests[n]? = some r ∧ r.purpose.isCompletion = true
  once : s.asked.Nodup
  runs : ∀ n, s.cancels.count n = ((s.requests[n]?).map (·.handle.runs)).getD 0
  recorded : ∀ n ∈ s.recorded, ∃ r, s.requests[n]? = some r ∧ r.purpose.isCompletion = true
  pending : ∀ server n, pend server n →
    ∃ r, s.requests[n]? = some r ∧ r.server = server ∧ r.purpose.isCompletion = true
  settled : ∀ n r, s.requests[n]? = some r → r.purpose.isCompletion = true →
    Settled s n r (pend r.server n)
  waiting : ∀ n server purpose, (n, server, purpose) ∈ s.waiting →
    ∃ r, s.requests[n]? = some r ∧ r.server = server ∧ r.purpose = purpose ∧ r.awaiting = false
  single : (s.waiting.map (·.1)).Nodup

/-- Nothing happens that the accounts are about. -/
structure SameBooks (s t : Session) : Prop where
  requests : t.requests = s.requests
  waiting : t.waiting = s.waiting
  cancellable : t.cancellable = s.cancellable
  asked : t.asked = s.asked
  cancels : t.cancels = s.cancels
  recorded : t.recorded = s.recorded

theorem Adds.sameBooks {kinds : List Kind} {s t : Session} (h : Adds kinds s t)
    (hk : kinds ⊆ [.plain, .text, .opened, .givenUp, .shown]) (hr : t.requests = s.requests)
    (hw : t.waiting = s.waiting) (hc : t.cancellable = s.cancellable) : SameBooks s t :=
  ⟨hr, hw, hc, h.asked_eq fun hm => by simpa using hk hm, h.cancels_eq fun hm => by simpa using hk hm,
    h.recorded_eq fun hm => by simpa using hk hm⟩

/-- A message is posted only if the request still waits for its answer. -/
theorem answer_waiting (s : Session) (n : Nat) (reply : Reply) :
    (s.answer n reply).waiting = s.waiting ∨ ∃ r, s.requests[n]? = some r ∧
      r.awaiting = true ∧ (s.answer n reply).waiting = s.waiting ++ [(n, r.server, r.purpose)] := by
  rcases s.answer_queue n reply with hw | ⟨r, hn, haw, _, hw⟩
  · exact .inl (by rw [Session.waiting, Session.waiting, hw])
  · refine .inr ⟨r, hn, haw, ?_⟩
    rw [Session.waiting, Session.waiting, hw, List.filterMap_append]
    rfl

/-- What sending a request adds to the books. -/
theorem post_books (s : Session) (server : ServerId) (purpose : Purpose) (params : Json) :
    (s.post server purpose params).asked =
        s.asked ++ (if purpose.isCompletion then [s.requests.length] else []) ∧
      (s.post server purpose params).cancels = s.cancels ∧
      (s.post server purpose params).recorded = s.recorded := by
  refine ⟨?_, ?_, ?_⟩
  · simp only [Session.post, Session.call, Session.asked, List.filterMap_append]
    cases purpose <;> rfl
  · simp [Session.post, Session.call, Session.cancels, cancelled?]
  · simp [Session.post, Session.call, Session.recorded, recorded?]

namespace Accounts

variable {pend other : ServerId → Nat → Prop} {s t : Session}

theorem congr (h : Accounts pend s) (hp : ∀ server n, pend server n ↔ other server n) :
    Accounts other s := by
  have he : pend = other := by
    funext server n
    exact propext (hp server n)
  exact he ▸ h

theorem same (h : Accounts pend s) (hb : SameBooks s t) : Accounts pend t := by
  have hf : t.freshHandle = s.freshHandle := by rw [freshHandle, freshHandle, hb.cancellable]
  obtain ⟨hq, hw, _, ha, hc, hr⟩ := hb
  refine ⟨?_, ?_, ?_, ?_, ?_, fun n r hn hp => ?_, ?_, ?_⟩
  · rw [ha, hq]; exact h.asked
  · rw [ha]; exact h.once
  · rw [hc, hq]; exact h.runs
  · rw [hr, hq]; exact h.recorded
  · rw [hq]; exact h.pending
  · rw [hq] at hn
    cases h.settled n r hn hp with
    | pending hp ha hh => exact .pending hp (hr ▸ ha) (hf ▸ hh)
    | answered hp ha hh hw' hn => exact .answered hp (hr ▸ ha) (hf ▸ hh) hw' (hw ▸ hn)
    | cancelled hp ha hd hh => exact .cancelled hp (hr ▸ ha) hd (hf ▸ hh)
  · rw [hw, hq]; exact h.waiting
  · rw [hw]; exact h.single

section
variable {n : Nat} {g : Request → Request}

/-- One request may change, but not what it is about and whom it was sent to. -/
theorem update (h : Accounts pend s)
    (hq : ∀ k, t.requests[k]? = s.requests[k]?.map fun r => if n = k then g r else r)
    (hg : ∀ r, (g r).server = r.server ∧ (g r).purpose = r.purpose)
    (ha : t.asked = s.asked) (hr : t.recorded = s.recorded)
    (hp : ∀ server k, other server k → pend server k)
    (runs : ∀ k, t.cancels.count k = ((t.requests[k]?).map (·.handle.runs)).getD 0)
    (others : ∀ k r, k ≠ n → Settled s k r (pend r.server k) → Settled t k r (other r.server k))
    (settled : ∀ r, s.requests[n]? = some r → Settled s n r (pend r.server n) →
      Settled t n (g r) (other r.server n))
    (waiting : ∀ k server purpose, (k, server, purpose) ∈ t.waiting →
      ∃ r, t.requests[k]? = some r ∧ r.server = server ∧ r.purpose = purpose ∧ r.awaiting = false)
    (single : (t.waiting.map (·.1)).Nodup) : Accounts other t := by
  have hf (k : Nat) (r : Request) : (if n = k then g r else r).server = r.server ∧
      (if n = k then g r else r).purpose = r.purpose := by
    split
    · exact hg r
    · exact ⟨rfl, rfl⟩
  have hn {k : Nat} {r : Request} (hk : s.requests[k]? = some r) :
      t.requests[k]? = some (if n = k then g r else r) := by
    rw [hq, hk]
    rfl
  refine ⟨fun k hk => ?_, ha ▸ h.once, runs, fun k hk => ?_, fun server k hk => ?_,
    fun k r hk hc => ?_, waiting, single⟩
  · obtain ⟨r, hk, hc⟩ := h.asked k (ha ▸ hk)
    exact ⟨_, hn hk, (hf k r).2 ▸ hc⟩
  · obtain ⟨r, hk, hc⟩ := h.recorded k (hr ▸ hk)
    exact ⟨_, hn hk, (hf k r).2 ▸ hc⟩
  · obtain ⟨r, hk, hs, hc⟩ := h.pending server k (hp server k hk)
    exact ⟨_, hn hk, (hf k r).1.trans hs, (hf k r).2 ▸ hc⟩
  · rw [hq] at hk
    obtain ⟨q, hs, rfl⟩ := Option.map_eq_some_iff.mp hk
    rw [(hf k q).2] at hc
    rw [(hf k q).1]
    have hd := h.settled k q hs hc
    split
    next hkn =>
      subst hkn
      exact settled q hs hd
    next hkn => exact others k q (Ne.symm hkn) hd

/-- Whatever waits keeps waiting if no request loses its answer. -/
theorem waiting_update (h : Accounts pend s)
    (hq : ∀ k, t.requests[k]? = s.requests[k]?.map fun r => if n = k then g r else r)
    (hg : ∀ r, (g r).server = r.server ∧ (g r).purpose = r.purpose)
    (hw : ∀ r, r.awaiting = false → (g r).awaiting = false) {k : Nat} {server : ServerId}
    {purpose : Purpose} (hm : (k, server, purpose) ∈ s.waiting) :
    ∃ r, t.requests[k]? = some r ∧ r.server = server ∧ r.purpose = purpose ∧
      r.awaiting = false := by
  obtain ⟨r, hk, rfl, rfl, ha⟩ := h.waiting k server purpose hm
  refine ⟨if n = k then g r else r, by rw [hq, hk]; rfl, ?_⟩
  split
  · exact ⟨(hg r).1, (hg r).2, hw r ha⟩
  · exact ⟨rfl, rfl, ha⟩

/-- Handles that stay as they are were not cancelled. -/
theorem runs_update (h : Accounts pend s)
    (hq : ∀ k, t.requests[k]? = s.requests[k]?.map fun r => if n = k then g r else r)
    (hg : ∀ r, (g r).handle = r.handle) (hc : t.cancels = s.cancels) (k : Nat) :
    t.cancels.count k = ((t.requests[k]?).map (·.handle.runs)).getD 0 := by
  rw [hc, h.runs, hq]
  cases s.requests[k]? with
  | none => rfl
  | some r =>
    change r.handle.runs = (if n = k then g r else r).handle.runs
    split
    · rw [hg]
    · rfl

end

theorem forget (h : Accounts pend s) (n : Nat) : Accounts pend (s.forget n) := by
  have hq := s.forget_requests n
  have hg (r : Request) : ({ r with live := false } : Request).server = r.server ∧
      ({ r with live := false } : Request).purpose = r.purpose := ⟨rfl, rfl⟩
  refine h.update hq hg rfl rfl (fun _ _ hp => hp) (h.runs_update hq (fun _ => rfl) rfl)
    (fun k r _ hs => ?_) (fun r _ hs => ?_)
    (fun _ _ _ hm => h.waiting_update hq hg (fun _ ha => ha) hm) h.single
  · cases hs with
    | pending hp hu hd => exact .pending hp hu hd
    | answered hp hu hd ha hw => exact .answered hp hu hd ha hw
    | cancelled hp hu hl hd => exact .cancelled hp hu hl hd
  · cases hs with
    | pending hp hu hd => exact .pending hp hu hd
    | answered hp hu hd ha hw => exact .answered hp hu hd ha hw
    | cancelled hp hu _ hd => exact .cancelled hp hu rfl hd

/-- A request whose answer was not recorded may be cancelled; afterwards it is not pending. -/
theorem cancel (h : Accounts pend s) (n : Nat) (hn : n ∉ s.recorded) :
    Accounts (fun server k => pend server k ∧ k ≠ n) (s.cancel n) := by
  have hq := s.cancel_requests n
  have ht := s.cancel_trace n
  have hg (r : Request) :
      ({ r with live := false, handle := r.handle.cancel } : Request).server = r.server ∧
      ({ r with live := false, handle := r.handle.cancel } : Request).purpose = r.purpose :=
    ⟨rfl, rfl⟩
  have hb : Adds [.cancel] s (s.cancel n) := Adds.cancel s n
  have ha : (s.cancel n).asked = s.asked := hb.asked_eq (by simp)
  have hr : (s.cancel n).recorded = s.recorded := hb.recorded_eq (by simp)
  have hw : (s.cancel n).waiting = s.waiting := by rw [cancel_frame]; rfl
  have hf : (s.cancel n).freshHandle = s.freshHandle := by rw [cancel_frame]; rfl
  have hc : s.freshHandle.cancel.cancel = s.freshHandle.cancel := RequestHandle.cancel_cancel _
  refine h.update hq hg ha hr (fun _ _ hp => hp.1) (fun k => ?_) (fun k r hk hs => ?_)
    (fun r _ hs => ?_) (fun _ _ _ hm => h.waiting_update hq hg (fun _ ha => ha) (hw ▸ hm))
    (hw ▸ h.single)
  · have hc : (s.cancel n).cancels = s.cancels ++
        if (s.requests[n]?.map (·.handle.pending)).getD false then [n] else [] := by
      rw [cancels, ht, List.filterMap_append, cancels]
      split <;> rfl
    rw [hc, List.count_append, h.runs, hq]
    by_cases hk : n = k
    · subst hk
      cases s.requests[n]? with
      | none => rfl
      | some r => cases hp : r.handle.pending <;> simp [RequestHandle.cancel, hp]
    · have h0 : List.count k (if (s.requests[n]?.map (·.handle.pending)).getD false then [n]
          else []) = 0 := by
        split <;> simp [hk]
      simp [h0, hk]
  · cases hs with
    | pending hp hu hd => exact .pending ⟨hp, hk⟩ (hr ▸ hu) (hf ▸ hd)
    | answered hp hu hd ha hw' =>
      exact .answered (fun hp' => hp hp'.1) (hr ▸ hu) (hf ▸ hd) ha (hw ▸ hw')
    | cancelled hp hu hl hd => exact .cancelled (fun hp' => hp hp'.1) (hr ▸ hu) hl (hf ▸ hd)
  · have hp : ¬ (pend r.server n ∧ n ≠ n) := fun hp => hp.2 rfl
    cases hs with
    | pending _ hu hd => exact .cancelled hp (hr ▸ hu) rfl (by rw [hf, hd])
    | answered _ hu => exact absurd hu hn
    | cancelled _ hu _ hd => exact .cancelled hp (hr ▸ hu) rfl (by rw [hf, hd, hc])

theorem unrecorded (h : Accounts pend s) {server : ServerId} {n : Nat} (hp : pend server n) :
    n ∉ s.recorded := by
  obtain ⟨r, hn, rfl, hc⟩ := h.pending server n hp
  cases h.settled n r hn hc with
  | pending _ hu => exact hu
  | answered hp' => exact absurd hp hp'
  | cancelled hp' => exact absurd hp hp'

theorem foldl_forget (ns : List Nat) (h : Accounts pend s) :
    Accounts pend (ns.foldl Session.forget s) := by
  induction ns generalizing s with
  | nil => exact h
  | cons n ns ih => exact ih (h.forget n)

theorem foldl_cancel (ns : List Nat) (h : Accounts pend s) (hn : ∀ n ∈ ns, n ∉ s.recorded) :
    Accounts (fun server k => pend server k ∧ k ∉ ns) (ns.foldl Session.cancel s) := by
  induction ns generalizing pend s with
  | nil => exact h.congr fun server k => by simp
  | cons n ns ih =>
    have hc := h.cancel n (hn n List.mem_cons_self)
    have hr : (s.cancel n).recorded = s.recorded := (Adds.cancel s n).recorded_eq (by simp)
    have ht := ih hc fun k hk => hr ▸ hn k (List.mem_cons_of_mem _ hk)
    exact ht.congr fun server k => by simp [and_assoc]

theorem cancelAll (h : Accounts pend s) (asked : List Nat) (pending : ServerMap Nat)
    (hn : ∀ n ∈ pending.values, n ∉ s.recorded) :
    Accounts (fun server k => pend server k ∧ k ∉ pending.values) (s.cancelAll asked pending) := by
  have hr : (asked.foldl Session.forget s).recorded = s.recorded := by
    rw [foldl_forget_frame]
    rfl
  exact (h.foldl_forget asked).foldl_cancel pending.values (hr.symm ▸ hn)

theorem number_lt {k : Nat} {r : Request} (hk : s.requests[k]? = some r) : k < s.requests.length :=
  (List.getElem?_eq_some_iff.mp hk).1

/-- The next request has a number that is not in the books yet. -/
theorem fresh {ns : List Nat}
    (hn : ∀ n ∈ ns, ∃ r, s.requests[n]? = some r ∧ r.purpose.isCompletion = true) :
    s.requests.length ∉ ns := by
  intro hm
  obtain ⟨r, hk, _⟩ := hn _ hm
  exact absurd (number_lt hk) (Nat.lt_irrefl _)

/-- A completion request that is sent is pending. -/
theorem post (h : Accounts pend s) (server : ServerId) (purpose : Purpose) (params : Json) :
    Accounts (fun x k => pend x k ∨ purpose.isCompletion = true ∧ x = server ∧ k = s.requests.length)
      (s.post server purpose params) := by
  have hq := s.post_requests server purpose params
  have hold {k : Nat} {r : Request} (hk : s.requests[k]? = some r) :
      (s.post server purpose params).requests[k]? = some r := by
    rw [hq, if_neg (Nat.ne_of_lt (number_lt hk)), hk]
  have hnew : (s.post server purpose params).requests[s.requests.length]? =
      some { server, purpose, handle := s.freshHandle } := by rw [hq, if_pos rfl]
  obtain ⟨ha, hc, hr⟩ := s.post_books server purpose params
  refine ⟨fun k hk => ?_, ?_, fun k => ?_, fun k hk => ?_, fun x k hk => ?_, fun k r hk hp => ?_,
    fun k x p hk => ?_, h.single⟩
  · rw [ha] at hk
    rcases List.mem_append.mp hk with hk | hk
    · obtain ⟨r, hk, hp⟩ := h.asked k hk
      exact ⟨r, hold hk, hp⟩
    · split at hk
      next hp =>
        rw [List.mem_singleton.mp hk]
        exact ⟨_, hnew, hp⟩
      next => simp at hk
  · rw [ha]
    split
    · refine List.nodup_append.mpr ⟨h.once, by simp, fun x hx y hy he => ?_⟩
      rw [he, List.mem_singleton.mp hy] at hx
      exact fresh h.asked hx
    · simpa using h.once
  · rw [hc, h.runs, hq]
    split
    next hk =>
      rw [List.getElem?_eq_none (Nat.le_of_eq hk.symm)]
      simp only [freshHandle]
      split <;> rfl
    next => rfl
  · obtain ⟨r, hk, hp⟩ := h.recorded k (hr ▸ hk)
    exact ⟨r, hold hk, hp⟩
  · rcases hk with hk | ⟨hp, rfl, rfl⟩
    · obtain ⟨r, hk, hs, hp⟩ := h.pending x k hk
      exact ⟨r, hold hk, hs, hp⟩
    · exact ⟨_, hnew, rfl, hp⟩
  · rw [hq] at hk
    split at hk
    next hkn =>
      subst hkn
      obtain rfl := Option.some.inj hk
      exact .pending (.inr ⟨hp, rfl, rfl⟩) (hr ▸ fresh h.recorded) rfl
    next hkn =>
      have hne : ¬ (purpose.isCompletion = true ∧ r.server = server ∧ k = s.requests.length) :=
        fun he => hkn he.2.2
      cases h.settled k r hk hp with
      | pending hp hu hd => exact .pending (.inl hp) (hr ▸ hu) hd
      | answered hp hu hd haw hw =>
        exact .answered (fun he => he.elim hp hne) (hr ▸ hu) hd haw hw
      | cancelled hp hu hl hd =>
        exact .cancelled (fun he => he.elim hp hne) (hr ▸ hu) hl hd
  · obtain ⟨r, hk, hs⟩ := h.waiting k x p hk
    exact ⟨r, hold hk, hs⟩

/-- No message waits with the answer to a request that has none yet. -/
theorem not_waiting (h : Accounts pend s) {n : Nat} {r : Request} (hn : s.requests[n]? = some r)
    (haw : r.awaiting = true) : n ∉ s.waiting.map (·.1) := by
  intro hm
  obtain ⟨⟨k, x, p⟩, he, hk⟩ := List.mem_map.mp hm
  obtain ⟨q, hq', _, _, hq⟩ := h.waiting k x p he
  rw [show k = n from hk, hn] at hq'
  obtain rfl := Option.some.inj hq'
  rw [hq] at haw
  exact Bool.noConfusion haw

theorem answer (h : Accounts pend s) (n : Nat) (reply : Reply) :
    Accounts pend (s.answer n reply) := by
  have hq (k : Nat) := s.answer_requests n k reply
  have hg (r : Request) : ({ r with awaiting := false } : Request).server = r.server ∧
      ({ r with awaiting := false } : Request).purpose = r.purpose := ⟨rfl, rfl⟩
  have hb : Adds [] s (s.answer n reply) := Adds.answer s n reply
  have ha : (s.answer n reply).asked = s.asked := hb.asked_eq (by simp)
  have hc : (s.answer n reply).cancels = s.cancels := hb.cancels_eq (by simp)
  have hr : (s.answer n reply).recorded = s.recorded := hb.recorded_eq (by simp)
  have hf : (s.answer n reply).freshHandle = s.freshHandle := by rw [answer_frame]; rfl
  have hw := s.answer_waiting n reply
  refine h.update hq hg ha hr (fun _ _ hp => hp) (h.runs_update hq (fun _ => rfl) hc)
    (fun k r hkn hs => ?_) (fun r hn hs => ?_) (fun k x p hm => ?_) ?_
  · cases hs with
    | pending hp hu hd => exact .pending hp (hr ▸ hu) (hf ▸ hd)
    | answered hp hu hd haw hm =>
      refine .answered hp (hr ▸ hu) (hf ▸ hd) haw ?_
      rcases hw with hw | ⟨_, _, _, hw⟩
      · exact hw ▸ hm
      · simpa [hw, hkn] using hm
    | cancelled hp hu hl hd => exact .cancelled hp (hr ▸ hu) hl (hf ▸ hd)
  · cases hs with
    | pending hp hu hd => exact .pending hp (hr ▸ hu) (hf ▸ hd)
    | answered hp hu hd haw hm =>
      refine .answered hp (hr ▸ hu) (hf ▸ hd) rfl ?_
      rcases hw with hw | ⟨q, hq, hwait, _⟩
      · exact hw ▸ hm
      · rw [hn] at hq
        obtain rfl := Option.some.inj hq
        rw [haw] at hwait
        exact Bool.noConfusion hwait
    | cancelled hp hu hl hd => exact .cancelled hp (hr ▸ hu) hl (hf ▸ hd)
  · rcases hw with hw | ⟨r, hn, _, hw⟩
    · exact h.waiting_update hq hg (fun _ _ => rfl) (hw ▸ hm)
    · rw [hw] at hm
      rcases List.mem_append.mp hm with hm | hm
      · exact h.waiting_update hq hg (fun _ _ => rfl) hm
      · obtain ⟨rfl, rfl, rfl⟩ : k = n ∧ x = r.server ∧ p = r.purpose := by simpa using hm
        exact ⟨_, by rw [hq, hn]; rfl, by simp⟩
  · rcases hw with hw | ⟨r, hn, haw, hw⟩
    · exact hw ▸ h.single
    · rw [hw, List.map_append]
      refine List.nodup_append.mpr ⟨h.single, by simp, fun x hx y hy he => ?_⟩
      rw [he, List.mem_singleton.mp hy] at hx
      exact h.not_waiting hn haw hx

theorem send (h : Accounts pend s) (server : ServerId) (purpose : Purpose) (params : Json) :
    Accounts (fun x k => pend x k ∨ purpose.isCompletion = true ∧ x = server ∧ k = s.requests.length)
      (s.send server purpose params).1 := by
  have hp := h.post server purpose params
  rcases (s.send_eq server purpose params).2 with hs | ⟨reply, hs⟩
  · exact hs ▸ hp
  · exact hs ▸ hp.answer _ reply

theorem discard (h : Accounts pend s) (place : Nat) :
    Accounts pend { s with queue := s.queue.eraseIdx place } := by
  have hw : List.Sublist ({ s with queue := s.queue.eraseIdx place } : Session).waiting s.waiting :=
    (List.eraseIdx_sublist s.queue place).filterMap _
  refine ⟨h.asked, h.once, h.runs, h.recorded, h.pending, fun n r hn hp => ?_,
    fun n x p hm => h.waiting n x p (hw.subset hm), h.single.sublist (hw.map _)⟩
  cases h.settled n r hn hp with
  | pending hp hu hd => exact .pending hp hu hd
  | answered hp hu hd haw hm => exact .answered hp hu hd haw fun h => hm ((hw.map _).subset h)
  | cancelled hp hu hl hd => exact .cancelled hp hu hl hd

/-- The answer to a pending request is put into the round once it has been taken from the queue. -/
theorem record (h : Accounts pend s) {server : ServerId} {n : Nat} {r : Request} (reply : Reply)
    (hp : pend server n) (hn : s.requests[n]? = some r) (ha : r.awaiting = false)
    (hw : n ∉ s.waiting.map (·.1)) :
    Accounts (fun x k => pend x k ∧ k ≠ n) (s.note (.recorded n server reply)) := by
  have hr : (s.note (.recorded n server reply)).recorded = s.recorded ++ [n] := by
    simp [note, Session.recorded, recorded?]
  have hasked : (s.note (.recorded n server reply)).asked = s.asked := by
    simp [note, Session.asked, asked?]
  have hcancels : (s.note (.recorded n server reply)).cancels = s.cancels := by
    simp [note, Session.cancels, cancelled?]
  refine ⟨fun k hk => h.asked k (hasked ▸ hk), hasked ▸ h.once, fun k => ?_, fun k hk => ?_,
    fun x k hk => h.pending x k hk.1, fun k q hk hc => ?_, h.waiting, h.single⟩
  · rw [hcancels]
    exact h.runs k
  · rw [hr] at hk
    rcases List.mem_append.mp hk with hk | hk
    · exact h.recorded k hk
    · obtain ⟨q, hq, _, hc⟩ := h.pending server n hp
      exact ⟨q, List.mem_singleton.mp hk ▸ hq, hc⟩
  · by_cases hkn : k = n
    · subst hkn
      obtain rfl : r = q := Option.some.inj (hn.symm.trans hk)
      have hd : r.handle = s.freshHandle := by
        obtain ⟨q, hq, rfl, _⟩ := h.pending server k hp
        obtain rfl : r = q := Option.some.inj (hn.symm.trans hq)
        cases h.settled k r hk hc with
        | pending _ _ hd => exact hd
        | answered hp' => exact absurd hp hp'
        | cancelled hp' => exact absurd hp hp'
      exact .answered (fun he => he.2 rfl) (by simp [hr]) hd ha hw
    · have hu {l : List Nat} (hl : k ∉ l) : k ∉ l ++ [n] := by simp [hl, hkn]
      cases h.settled k q hk hc with
      | pending hp hu' hd => exact .pending ⟨hp, hkn⟩ (hr ▸ hu hu') hd
      | answered hp hm hd haw hw' =>
        exact .answered (fun he => hp he.1) (hr ▸ List.mem_append_left _ hm) hd haw hw'
      | cancelled hp hu' hl hd => exact .cancelled (fun he => hp he.1) (hr ▸ hu hu') hl hd

end Accounts
end Session
end Autocomplete

import Autocomplete.Proofs.Table
import Autocomplete.Session.Rounds

/-! What sending, answering and giving up requests changes: the list of requests, the queue and the
trace, and nothing else. -/
namespace Autocomplete.Session

theorem forget_requests (s : Session) (n k : Nat) :
    (s.forget n).requests[k]? =
      s.requests[k]?.map fun r => if n = k then { r with live := false } else r := by
  simp only [forget, List.getElem?_modify]
  rfl

theorem cancel_frame (s : Session) (n : Nat) :
    s.cancel n = { s with requests := (s.cancel n).requests, trace := (s.cancel n).trace } := by
  unfold cancel
  dsimp only
  split
  · split
    · rfl
    · rfl
  · rfl

theorem cancel_requests (s : Session) (n k : Nat) :
    (s.cancel n).requests[k]? = s.requests[k]?.map fun r =>
      if n = k then { r with live := false, handle := r.handle.cancel } else r := by
  have hf := s.forget_requests n
  unfold cancel
  dsimp only
  cases hn : (s.forget n).requests[n]? with
  | none =>
    rw [hf] at hn ⊢
    by_cases hk : n = k
    · subst hk
      simp only [Option.map_eq_none_iff] at hn
      simp [hn]
    · simp [hk]
  | some r =>
    obtain ⟨q, hq, rfl⟩ : ∃ q, s.requests[n]? = some q ∧ { q with live := false } = r := by
      simpa [hf] using hn
    dsimp only
    split
    next hp =>
      simp only [call, List.getElem?_set, hf]
      by_cases hk : n = k
      · subst hk
        have hl : n < (s.forget n).requests.length := (List.getElem?_eq_some_iff.mp hn).1
        simp [hl, hq]
      · simp [hk]
    next hp =>
      rw [hf]
      by_cases hk : n = k
      · subst hk
        have hc : q.handle.cancel = q.handle := by simp only [RequestHandle.cancel, hp]; rfl
        simp [hq, hc]
      · simp [hk]

/-- Only a handle that is still good for it makes the transport cancel the request. -/
theorem cancel_trace (s : Session) (n : Nat) :
    (s.cancel n).trace = s.trace ++
      if (s.requests[n]?.map (·.handle.pending)).getD false then [.call (.cancel n)] else [] := by
  have hf := s.forget_requests n n
  unfold cancel
  dsimp only
  cases hn : s.requests[n]? with
  | none =>
    rw [hn] at hf
    simp only [hf, Option.map_none]
    simp [forget]
  | some r =>
    rw [hn] at hf
    simp only [hf, Option.map_some, if_true]
    by_cases hp : r.handle.pending
    · simp [hp, call, forget]
    · simp [hp, forget]

theorem foldl_forget_frame (ns : List Nat) (s : Session) :
    ns.foldl forget s = { s with requests := (ns.foldl forget s).requests } := by
  induction ns generalizing s with
  | nil => rfl
  | cons n ns ih => exact (ih (s.forget n)).trans rfl

theorem foldl_cancel_frame (ns : List Nat) (s : Session) :
    ns.foldl cancel s = { s with
      requests := (ns.foldl cancel s).requests, trace := (ns.foldl cancel s).trace } := by
  induction ns generalizing s with
  | nil => rfl
  | cons n ns ih =>
    rw [List.foldl_cons, ih (s.cancel n), cancel_frame]

theorem cancelAll_frame (s : Session) (asked : List Nat) (pending : ServerMap Nat) :
    s.cancelAll asked pending = { s with
      requests := (s.cancelAll asked pending).requests
      trace := (s.cancelAll asked pending).trace } := by
  unfold cancelAll
  rw [foldl_cancel_frame, foldl_forget_frame]

theorem foldl_cancel_trace (ns : List Nat) (s : Session) :
    ∃ obs, (ns.foldl cancel s).trace = s.trace ++ obs ∧
      ∀ o ∈ obs, ∃ n ∈ ns, o = .call (.cancel n) := by
  induction ns generalizing s with
  | nil => exact ⟨[], by simp, by simp⟩
  | cons n ns ih =>
    obtain ⟨obs, ht, ho⟩ := ih (s.cancel n)
    refine ⟨(if (s.requests[n]?.map (·.handle.pending)).getD false then [.call (.cancel n)]
      else []) ++ obs, ?_, ?_⟩
    · rw [List.foldl_cons, ht, cancel_trace, List.append_assoc]
    · intro o h
      rcases List.mem_append.mp h with h | h
      · split at h
        · exact ⟨n, List.mem_cons_self, List.mem_singleton.mp h⟩
        · simp at h
      · obtain ⟨k, hk, he⟩ := ho o h
        exact ⟨k, List.mem_cons_of_mem _ hk, he⟩

/-- Only requests without an answer are cancelled at the transport. -/
theorem cancelAll_trace (s : Session) (asked : List Nat) (pending : ServerMap Nat) :
    ∃ obs, (s.cancelAll asked pending).trace = s.trace ++ obs ∧
      ∀ o ∈ obs, ∃ n ∈ pending.values, o = .call (.cancel n) := by
  have hf : (asked.foldl forget s).trace = s.trace := by rw [foldl_forget_frame]
  have h := foldl_cancel_trace pending.values (asked.foldl forget s)
  rwa [hf] at h

theorem foldl_forget_requests (ns : List Nat) (s : Session) (k : Nat) :
    (ns.foldl forget s).requests[k]? =
      s.requests[k]?.map fun r => if k ∈ ns then { r with live := false } else r := by
  induction ns generalizing s with
  | nil => simp
  | cons n ns ih =>
    rw [List.foldl_cons, ih, forget_requests, Option.map_map]
    congr 1
    funext r
    by_cases hk : n = k
    · subst hk
      simp
    · simp [hk, Ne.symm hk]

theorem foldl_cancel_requests (ns : List Nat) (s : Session) (k : Nat) :
    (ns.foldl cancel s).requests[k]? = s.requests[k]?.map fun r =>
      if k ∈ ns then { r with live := false, handle := r.handle.cancel } else r := by
  induction ns generalizing s with
  | nil => simp
  | cons n ns ih =>
    rw [List.foldl_cons, ih, cancel_requests, Option.map_map]
    congr 1
    funext r
    by_cases hk : n = k
    · subst hk
      simp [RequestHandle.cancel_cancel]
    · simp [hk, Ne.symm hk]

/-- All requests of a round are forgotten, and those without an answer are cancelled. -/
theorem cancelAll_requests (s : Session) (asked : List Nat) (pending : ServerMap Nat) (k : Nat) :
    (s.cancelAll asked pending).requests[k]? = s.requests[k]?.map fun r =>
      if k ∈ pending.values then { r with live := false, handle := r.handle.cancel }
      else if k ∈ asked then { r with live := false } else r := by
  rw [cancelAll, foldl_cancel_requests, foldl_forget_requests, Option.map_map]
  congr 1
  funext r
  simp only [Function.comp_apply]
  split
  · split <;> rfl
  · rfl

theorem giveUpRound_round (s : Session) (reason : CancelReason) :
    (s.giveUpRound reason).round = none := by
  unfold giveUpRound
  split
  · simp only [emit]
    rw [cancelAll_frame]
  next h => exact h

/-- An answer becomes a message if the request waits for it and is still wanted. -/
theorem answer_frame (s : Session) (n : Nat) (reply : Reply) :
    s.answer n reply = { s with
      requests := (s.answer n reply).requests, queue := (s.answer n reply).queue } := by
  unfold answer
  split
  · split
    · dsimp only
      split <;> rfl
    · rfl
  · rfl

theorem answer_requests (s : Session) (n k : Nat) (reply : Reply) :
    (s.answer n reply).requests[k]? =
      s.requests[k]?.map fun r => if n = k then { r with awaiting := false } else r := by
  have same (r : Request) (hr : s.requests[n]? = some r) (ha : r.awaiting = false) :
      s.requests[k]? =
        s.requests[k]?.map fun r => if n = k then { r with awaiting := false } else r := by
    by_cases hk : n = k
    · subst hk
      simp [hr, ← ha]
    · simp [hk]
  unfold answer
  split
  next r hr =>
    split
    next ha =>
      have hset : (s.requests.set n { r with awaiting := false })[k]? =
          s.requests[k]?.map fun r => if n = k then { r with awaiting := false } else r := by
        rw [List.getElem?_set]
        by_cases hk : n = k
        · subst hk
          have hl : n < s.requests.length := (List.getElem?_eq_some_iff.mp hr).1
          simp only [if_true, if_pos hl, hr, Option.map_some]
        · simp [hk]
      dsimp only
      split
      · exact hset
      · exact hset
    next ha => exact same r hr (by simpa using ha)
  next hn =>
    by_cases hk : n = k
    · subst hk
      simp [hn]
    · simp [hk]

theorem answer_queue (s : Session) (n : Nat) (reply : Reply) :
    (s.answer n reply).queue = s.queue ∨
      ∃ r, s.requests[n]? = some r ∧ r.awaiting = true ∧ r.live = true ∧
        (s.answer n reply).queue = s.queue ++ [.reply n r.server r.purpose reply] := by
  unfold answer
  split
  next r hr =>
    split
    next ha =>
      dsimp only
      split
      next hl => exact .inr ⟨r, hr, ha, hl, rfl⟩
      next => exact .inl rfl
    next => exact .inl rfl
  next => exact .inl rfl

theorem post_requests (s : Session) (server : ServerId) (purpose : Purpose) (params : Json)
    (k : Nat) : (s.post server purpose params).requests[k]? =
      if k = s.requests.length then some { server, purpose, handle := s.freshHandle }
      else s.requests[k]? := by
  change (s.requests ++ [_])[k]? = _
  split
  next hk => rw [hk, List.getElem?_concat_length]
  next hk =>
    rcases Nat.lt_or_gt_of_ne hk with hlt | hgt
    · exact List.getElem?_append_left hlt
    · have hl : (s.requests ++
          [({ server, purpose, handle := s.freshHandle } : Request)]).length ≤ k := by
        simpa using Nat.succ_le_of_lt hgt
      rw [List.getElem?_eq_none hl, List.getElem?_eq_none (Nat.le_of_lt hgt)]

/-- A request is handed to the transport, and then its answer may come at once. -/
theorem send_eq (s : Session) (server : ServerId) (purpose : Purpose) (params : Json) :
    (s.send server purpose params).2 = s.requests.length ∧
      ((s.send server purpose params).1 = s.post server purpose params ∨
        ∃ reply, (s.send server purpose params).1 =
          (s.post server purpose params).answer s.requests.length reply) := by
  unfold send
  dsimp only
  split
  next reply _ => exact ⟨rfl, .inr ⟨reply, rfl⟩⟩
  next => exact ⟨rfl, .inl rfl⟩

theorem send_frame (s : Session) (server : ServerId) (purpose : Purpose) (params : Json) :
    (s.send server purpose params).1 = { s with
      requests := (s.send server purpose params).1.requests
      queue := (s.send server purpose params).1.queue
      trace := s.trace ++ [.call (.request s.requests.length server purpose.method params)] } := by
  rcases (s.send_eq server purpose params).2 with h | ⟨reply, h⟩
  · rw [h]
    rfl
  · rw [h, answer_frame]
    rfl

/-- What holds when nobody was asked yet and is kept with each request holds in the end. -/
theorem askAll_induction (purpose : Purpose) (params : Session → Binding → Json)
    {P : Session → List (ServerId × Nat) → Prop}
    (step : ∀ s asked server json, P s asked →
      P (s.send server purpose json).1 (asked ++ [(server, s.requests.length)])) :
    ∀ (bs : List Binding) (s : Session) (asked : List (ServerId × Nat)), P s asked →
      P (askAll purpose params s bs).1 (asked ++ (askAll purpose params s bs).2)
  | [], s, asked, h => by simpa [askAll] using h
  | b :: bs, s, asked, h => by
    have hn := (s.send_eq b.server purpose (params s b)).1
    have ht := askAll_induction purpose params step bs _ _ (step s asked b.server (params s b) h)
    simp only [askAll, hn]
    rwa [List.append_assoc] at ht

theorem askAll_frame (purpose : Purpose) (params : Session → Binding → Json) (s : Session)
    (bs : List Binding) :
    (askAll purpose params s bs).1 = { s with
      requests := (askAll purpose params s bs).1.requests
      queue := (askAll purpose params s bs).1.queue
      trace := (askAll purpose params s bs).1.trace } := by
  have step (t : Session) (asked : List (ServerId × Nat)) (server : ServerId) (json : Json)
      (ht : t = { s with requests := t.requests, queue := t.queue, trace := t.trace }) :
      (t.send server purpose json).1 = { s with
        requests := (t.send server purpose json).1.requests
        queue := (t.send server purpose json).1.queue
        trace := (t.send server purpose json).1.trace } := by
    rw [send_frame, ht]
  exact askAll_induction purpose params step bs s [] rfl

theorem askAll_servers (purpose : Purpose) (params : Session → Binding → Json) (bs : List Binding)
    (s : Session) : (askAll purpose params s bs).2.map (·.1) = bs.map (·.server) := by
  induction bs generalizing s with
  | nil => rfl
  | cons b bs ih => simp [askAll, ih]

def purpose? (s : Session) (n : Nat) : Option Purpose := (s.requests[n]?).map (·.purpose)

theorem forget_purpose? (s : Session) (n k : Nat) : (s.forget n).purpose? k = s.purpose? k := by
  rw [purpose?, forget_requests, purpose?]
  cases s.requests[k]? with
  | none => rfl
  | some r =>
    simp only [Option.map_some]
    split <;> rfl

theorem cancel_purpose? (s : Session) (n k : Nat) : (s.cancel n).purpose? k = s.purpose? k := by
  rw [purpose?, cancel_requests, purpose?]
  cases s.requests[k]? with
  | none => rfl
  | some r =>
    simp only [Option.map_some]
    split <;> rfl

theorem cancelAll_purpose? (s : Session) (asked : List Nat) (pending : ServerMap Nat) (k : Nat) :
    (s.cancelAll asked pending).purpose? k = s.purpose? k := by
  have hf (ns : List Nat) (t : Session) : (ns.foldl forget t).purpose? k = t.purpose? k := by
    induction ns generalizing t with
    | nil => rfl
    | cons n ns ih => rw [List.foldl_cons, ih, forget_purpose?]
  have hc (ns : List Nat) (t : Session) : (ns.foldl cancel t).purpose? k = t.purpose? k := by
    induction ns generalizing t with
    | nil => rfl
    | cons n ns ih => rw [List.foldl_cons, ih, cancel_purpose?]
  rw [cancelAll, hc, hf]

theorem answer_purpose? (s : Session) (n k : Nat) (reply : Reply) :
    (s.answer n reply).purpose? k = s.purpose? k := by
  rw [purpose?, answer_requests, purpose?]
  cases s.requests[k]? with
  | none => rfl
  | some r =>
    simp only [Option.map_some]
    split <;> rfl

theorem send_requests (s : Session) (server : ServerId) (purpose : Purpose) (params : Json)
    (k : Nat) (hk : k < s.requests.length) :
    (s.send server purpose params).1.requests[k]? = s.requests[k]? := by
  have hp : (s.post server purpose params).requests[k]? = s.requests[k]? := by
    rw [post_requests, if_neg (Nat.ne_of_lt hk)]
  rcases (s.send_eq server purpose params).2 with h | ⟨reply, h⟩
  · rw [h, hp]
  · rw [h, answer_requests, hp]
    simp [Nat.ne_of_gt hk]

/-- The request that was sent is wanted. -/
theorem send_new (s : Session) (server : ServerId) (purpose : Purpose) (params : Json) :
    ∃ r, (s.send server purpose params).1.requests[s.requests.length]? = some r ∧
      r.server = server ∧ r.purpose = purpose ∧ r.live = true := by
  have hp : (s.post server purpose params).requests[s.requests.length]? =
      some { server, purpose, handle := s.freshHandle } := by rw [post_requests, if_pos rfl]
  rcases (s.send_eq server purpose params).2 with h | ⟨reply, h⟩
  · exact ⟨_, by rw [h, hp], rfl, rfl, rfl⟩
  · exact ⟨_, by rw [h, answer_requests, hp]; rfl, by simp⟩

theorem send_length (s : Session) (server : ServerId) (purpose : Purpose) (params : Json) :
    (s.send server purpose params).1.requests.length = s.requests.length + 1 := by
  have hn := (s.send_new server purpose params).choose_spec.1
  apply Nat.le_antisymm
  · apply List.getElem?_eq_none_iff.mp
    have hp : (s.post server purpose params).requests[s.requests.length + 1]? = none := by
      rw [post_requests, if_neg (Nat.succ_ne_self _)]
      exact List.getElem?_eq_none (Nat.le_succ _)
    rcases (s.send_eq server purpose params).2 with h | ⟨reply, h⟩
    · rw [h, hp]
    · rw [h, answer_requests, hp]
      rfl
  · exact (List.getElem?_eq_some_iff.mp hn).1

/-- Asking several servers leaves the requests before as they are, and adds one for each of them. -/
theorem askAll_requests (purpose : Purpose) (params : Session → Binding → Json) (s : Session)
    (bs : List Binding) :
    (∀ k < s.requests.length, (askAll purpose params s bs).1.requests[k]? = s.requests[k]?) ∧
      ∀ server n, (server, n) ∈ (askAll purpose params s bs).2 → s.requests.length ≤ n ∧
        ∃ r, (askAll purpose params s bs).1.requests[n]? = some r ∧ r.server = server ∧
          r.purpose = purpose ∧ r.live = true := by
  have h := askAll_induction purpose params (P := fun t asked =>
    s.requests.length ≤ t.requests.length ∧
    (∀ k < s.requests.length, t.requests[k]? = s.requests[k]?) ∧
      ∀ server n, (server, n) ∈ asked → s.requests.length ≤ n ∧
        ∃ r, t.requests[n]? = some r ∧ r.server = server ∧ r.purpose = purpose ∧ r.live = true)
    ?_ bs s [] ⟨Nat.le_refl _, fun _ _ => rfl, by simp⟩
  · exact ⟨h.2.1, h.2.2⟩
  · rintro t asked server json ⟨hl, hold, hnew⟩
    refine ⟨by rw [send_length]; omega, fun k hk => ?_, fun x n hm => ?_⟩
    · rw [send_requests _ _ _ _ _ (Nat.lt_of_lt_of_le hk hl), hold k hk]
    · rcases List.mem_append.mp hm with hm | hm
      · obtain ⟨hn, r, hr, hrest⟩ := hnew x n hm
        have hlt := (List.getElem?_eq_some_iff.mp hr).1
        exact ⟨hn, r, by rw [send_requests _ _ _ _ _ hlt, hr], hrest⟩
      · obtain ⟨rfl, rfl⟩ : x = server ∧ n = t.requests.length := by simpa using hm
        exact ⟨hl, t.send_new x purpose json⟩

end Autocomplete.Session

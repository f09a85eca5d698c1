import Autocomplete.Proofs.Session.Coherence

/-! The history of the round that is under way, as the trace tells it. Since the event that opened it
no completion request was sent and nothing was shown, and its answers are those that were recorded
and whose servers were not detached afterwards. -/
namespace Autocomplete

def Observation.note? : Observation → Option Note
  | .note n => some n
  | _ => none

namespace Session
open Observation

/-- A completion request was sent to a server, and no round has been opened since. -/
def SentLast (trace : List Observation) (server : ServerId) (n : Nat) : Prop :=
  ∃ old sent params, trace = old ++ .call (.request n server .completion params) :: sent ∧
    ∀ o ∈ sent, o.kind ≠ .opened

/-- An answer was put into the round, and its server was not detached afterwards. -/
def Kept (notes : List Note) (n : Nat) (server : ServerId) (reply : Reply) : Prop :=
  ∃ earlier later, notes = earlier ++ .recorded n server reply :: later ∧ .detached server ∉ later

theorem kept_concat (notes : List Note) (x : Note) (n : Nat) (server : ServerId) (reply : Reply) :
    Kept (notes ++ [x]) n server reply ↔
      x = .recorded n server reply ∨ Kept notes n server reply ∧ x ≠ .detached server := by
  constructor
  · rintro ⟨earlier, later, he, hd⟩
    rcases List.eq_nil_or_concat' later with rfl | ⟨rest, y, rfl⟩
    · exact .inl (List.singleton_inj.mp (List.append_inj_right' he rfl))
    · have hs : notes ++ [x] = (earlier ++ .recorded n server reply :: rest) ++ [y] := by
        rw [he, List.append_assoc, List.cons_append]
      obtain ⟨rfl, hy⟩ := List.append_inj' hs rfl
      obtain rfl := List.singleton_inj.mp hy
      refine .inr ⟨⟨earlier, rest, rfl, fun hm => hd (List.mem_append_left _ hm)⟩, ?_⟩
      rintro rfl
      exact hd (by simp)
  · rintro (rfl | ⟨⟨earlier, later, rfl, hd⟩, hx⟩)
    · exact ⟨notes, [], rfl, List.not_mem_nil⟩
    · refine ⟨earlier, later ++ [x], by rw [List.append_assoc, List.cons_append], fun hm => ?_⟩
      rcases List.mem_append.mp hm with hm | hm
      · exact hd hm
      · exact hx (List.mem_singleton.mp hm).symm

theorem Kept.mem {notes : List Note} {n : Nat} {server : ServerId} {reply : Reply}
    (h : Kept notes n server reply) : .recorded n server reply ∈ notes := by
  obtain ⟨earlier, later, rfl, _⟩ := h
  simp

/-- What the trace tells about a round: `since` is all that happened after it was opened. -/
structure Story (s : Session) (c : Round) (servers : List ServerId)
    (before since : List Observation) (notes : List Note) : Prop where
  trace : s.trace = before ++ .event (.requested c.id c.trigger c.cursor servers) :: since
  noted : since.filterMap note? = notes
  quiet : ∀ o ∈ since, o.kind ∈ [Kind.plain, .text, .cancel, .recorded, .detached]
  latest : s.lastId = c.id
  asked : ∀ server ∈ servers, ∃ n, SentLast before server n ∧
    (c.pending.find? server = some n ∨ (∃ reply, .recorded n server reply ∈ notes) ∨
      .detached server ∈ notes)
  pending : ∀ server n, c.pending.find? server = some n →
    SentLast before server n ∧ ∀ k reply, .recorded k server reply ∉ notes
  replies : ∀ server reply, c.replies.find? server = some reply ↔
    ∃ n, SentLast before server n ∧ Kept notes n server reply

namespace Story

variable {s t : Session} {c : Round} {servers : List ServerId} {before since : List Observation}
  {notes : List Note}

/-- Whatever else happens during a round does not change its story. -/
theorem extend (h : Story s c servers before since notes)
    (ha : Adds [.plain, .text, .cancel] s t) (hi : t.lastId = s.lastId) :
    ∃ more, Story t c servers before more notes := by
  obtain ⟨obs, ht, ho⟩ := ha
  have hn : obs.filterMap note? = [] := by
    refine List.filterMap_eq_nil_iff.mpr fun o hm => ?_
    cases o with
    | note n => exact absurd (ho _ hm) (by cases n <;> simp [kind])
    | _ => rfl
  refine ⟨since ++ obs, ?_, ?_, fun o hm => ?_, hi.trans h.latest, h.asked, h.pending, h.replies⟩
  · rw [ht, h.trace, List.append_assoc, List.cons_append]
  · rw [List.filterMap_append, hn, List.append_nil, h.noted]
  · rcases List.mem_append.mp hm with hm | hm
    · exact h.quiet o hm
    · have hk := ho o hm
      simp only [List.mem_cons, List.not_mem_nil, or_false] at hk ⊢
      tauto

theorem trace_note (h : Story s c servers before since notes) {x : Note}
    (ht : t.trace = s.trace ++ [.note x]) :
    t.trace = before ++ .event (.requested c.id c.trigger c.cursor servers) ::
        (since ++ [.note x]) ∧
      (since ++ [Observation.note x]).filterMap note? = notes ++ [x] ∧
      ∀ o ∈ since ++ [Observation.note x],
        o.kind ∈ [Kind.plain, .text, .cancel, .recorded, .detached] := by
  refine ⟨?_, ?_, ?_⟩
  · rw [ht, h.trace, List.append_assoc, List.cons_append]
  · rw [List.filterMap_append, h.noted]
    rfl
  · intro o hm
    rcases List.mem_append.mp hm with hm | hm
    · exact h.quiet o hm
    · rw [List.mem_singleton.mp hm]
      cases x <;> simp [kind]

theorem record (h : Story s c servers before since notes) {server : ServerId} {n : Nat}
    (hn : c.pending.find? server = some n) (reply : Reply)
    (ht : t.trace = s.trace ++ [.note (.recorded n server reply)]) (hi : t.lastId = s.lastId) :
    Story t (c.record server reply) servers before (since ++ [.note (.recorded n server reply)])
      (notes ++ [.recorded n server reply]) := by
  obtain ⟨hsent, hnone⟩ := h.pending server n hn
  obtain ⟨htrace, hnoted, hquiet⟩ := h.trace_note ht
  refine ⟨htrace, hnoted, hquiet, hi.trans h.latest, fun x hx => ?_, fun x k hk => ?_,
    fun x r => ?_⟩
  · obtain ⟨k, hk, hc⟩ := h.asked x hx
    refine ⟨k, hk, ?_⟩
    rcases hc with hc | ⟨r, hr⟩ | hd
    · by_cases hxs : server = x
      · subst hxs
        obtain rfl := Option.some.inj (hn.symm.trans hc)
        exact .inr (.inl ⟨reply, by simp⟩)
      · exact .inl (by rw [Round.pending_record, if_neg hxs, hc])
    · exact .inr (.inl ⟨r, List.mem_append_left _ hr⟩)
    · exact .inr (.inr (List.mem_append_left _ hd))
  · rw [Round.pending_record] at hk
    split at hk
    · cases hk
    next hxs =>
      obtain ⟨hsx, hnx⟩ := h.pending x k hk
      refine ⟨hsx, fun j r hm => ?_⟩
      rcases List.mem_append.mp hm with hm | hm
      · exact hnx j r hm
      · obtain ⟨_, rfl, _⟩ := Note.recorded.inj (List.mem_singleton.mp hm)
        exact hxs rfl
  · rw [Round.replies_record]
    simp only [kept_concat]
    split
    next hxs =>
      subst hxs
      constructor
      · rintro he
        obtain rfl := Option.some.inj he
        exact ⟨n, hsent, .inl rfl⟩
      · rintro ⟨k, _, he | ⟨hkept, _⟩⟩
        · obtain ⟨_, _, rfl⟩ := Note.recorded.inj he
          rfl
        · exact absurd hkept.mem (hnone k r)
    next hxs =>
      rw [h.replies x r]
      constructor
      · rintro ⟨k, hk, hkept⟩
        exact ⟨k, hk, .inr ⟨hkept, by simp⟩⟩
      · rintro ⟨k, hk, he | ⟨hkept, _⟩⟩
        · obtain ⟨_, rfl, _⟩ := Note.recorded.inj he
          exact absurd rfl hxs
        · exact ⟨k, hk, hkept⟩

/-- A round forgets a server that is detached. -/
theorem detached (h : Story s c servers before since notes) (server : ServerId)
    (ht : t.trace = s.trace ++ [.note (.detached server)]) (hi : t.lastId = s.lastId) :
    Story t (c.drop server) servers before (since ++ [.note (.detached server)])
      (notes ++ [.detached server]) := by
  obtain ⟨htrace, hnoted, hquiet⟩ := h.trace_note ht
  refine ⟨htrace, hnoted, hquiet, hi.trans h.latest, fun x hx => ?_, fun x k hk => ?_,
    fun x r => ?_⟩
  · obtain ⟨k, hk, hc⟩ := h.asked x hx
    refine ⟨k, hk, ?_⟩
    rcases hc with hc | ⟨r, hr⟩ | hd
    · by_cases hxs : server = x
      · subst hxs
        exact .inr (.inr (by simp))
      · exact .inl (by rw [Round.pending_drop, if_neg hxs, hc])
    · exact .inr (.inl ⟨r, List.mem_append_left _ hr⟩)
    · exact .inr (.inr (List.mem_append_left _ hd))
  · rw [Round.pending_drop] at hk
    split at hk
    · cases hk
    obtain ⟨hsx, hnx⟩ := h.pending x k hk
    exact ⟨hsx, fun j r hm => hnx j r (by simpa using hm)⟩
  · rw [Round.replies_drop]
    simp only [kept_concat]
    split
    next hxs =>
      subst hxs
      constructor
      · exact fun he => by cases he
      · rintro ⟨k, _, he | ⟨_, hd⟩⟩
        · cases he
        · exact absurd rfl hd
    next hxs =>
      rw [h.replies x r]
      constructor
      · rintro ⟨k, hk, hkept⟩
        exact ⟨k, hk, .inr ⟨hkept, fun he => hxs (Note.detached.inj he)⟩⟩
      · rintro ⟨k, hk, he | ⟨hkept, _⟩⟩
        · cases he
        · exact ⟨k, hk, hkept⟩

end Story

theorem SentLast.extend {trace obs : List Observation} {server : ServerId} {n : Nat}
    (h : SentLast trace server n) (ho : ∀ o ∈ obs, o.kind ≠ .opened) :
    SentLast (trace ++ obs) server n := by
  obtain ⟨old, sent, params, rfl, hs⟩ := h
  refine ⟨old, sent ++ obs, params, by rw [List.append_assoc, List.cons_append], fun o hm => ?_⟩
  exact (List.mem_append.mp hm).elim (hs o) (ho o)

theorem askAll_sentLast (id : RequestId) (params : Session → Binding → Json) (s : Session)
    (bs : List Binding) (server : ServerId) (n : Nat)
    (hm : (server, n) ∈ (askAll (.completion id) params s bs).2) :
    SentLast (askAll (.completion id) params s bs).1.trace server n := by
  refine askAll_induction (.completion id) params (P := fun t asked =>
    ∀ server n, (server, n) ∈ asked → SentLast t.trace server n)
    (fun t asked x json ht y k hk => ?_) bs s [] (fun _ _ hk => absurd hk List.not_mem_nil)
    server n hm
  rw [send_frame]
  rcases List.mem_append.mp hk with hk | hk
  · exact (ht y k hk).extend fun o ho => by simp [List.mem_singleton.mp ho, kind, Purpose.method]
  · obtain ⟨rfl, rfl⟩ : y = x ∧ k = t.requests.length := by simpa using hk
    exact ⟨t.trace, [], json, rfl, fun _ ho => absurd ho List.not_mem_nil⟩

theorem openRound_story {s : Session} (trigger : Trigger) (hn : s.round = none) :
    ∀ c, (s.openRound trigger).round = some c →
      ∃ servers before since notes, Story (s.openRound trigger) c servers before since notes := by
  unfold openRound
  extract_lets cursor id t
  have hsent := askAll_sentLast id (fun s b => s.completionParams trigger b) t
    (t.bindings.values.filter (·.completes))
  have hf := askAll_frame (.completion id) (fun s b => s.completionParams trigger b) t
    (t.bindings.values.filter (·.completes))
  split
  next u asked hu =>
    rw [hu] at hsent hf
    dsimp only at hsent hf
    split
    next =>
      intro c hc
      have hround : u.round = none := by rw [hf]; exact hn
      cases hround.symm.trans hc
    next =>
      extract_lets tracked v w pending round
      intro c hc
      obtain rfl := Option.some.inj hc
      have hlast (x : ServerId) (n : Nat) (hp : pending.find? x = some n) : SentLast w.trace x n :=
        (hsent x n (Table.mem_of_find?_ofList hp)).extend fun o ho => by
          simp [List.mem_singleton.mp ho, kind]
      refine ⟨pending.keys, w.trace, [], [], rfl, rfl, fun _ hm => absurd hm List.not_mem_nil, ?_,
        fun x hx => ?_, fun x n hp => ?_, fun x r => ?_⟩
      · change u.lastId = id
        rw [hf]
      · obtain ⟨n, hp⟩ := (Table.mem_keys_iff _ _).mp hx
        exact ⟨n, hlast x n hp, .inl hp⟩
      · exact ⟨hlast x n hp, fun _ _ hm => absurd hm List.not_mem_nil⟩
      · constructor
        · exact fun he => by cases he
        · rintro ⟨n, _, hk⟩
          exact absurd hk.mem List.not_mem_nil

/-- A completion request was sent, then its round was opened, and then another round has asked. -/
def Outdated (trace : List Observation) (n : Nat) : Prop :=
  ∃ old server params first e second,
    trace = old ++ .call (.request n server .completion params) :: (first ++ e :: second) ∧
      e.kind = .opened ∧ ∃ o ∈ second, o.kind = .asking

/-- Requests are numbered, so that each is found at one place only. -/
theorem request_unique {a b x y : List Observation} {n : Nat} {server other : ServerId}
    {params json : Json}
    (hn : ((a ++ .call (.request n server .completion params) :: b).filterMap asked?).Nodup)
    (he : a ++ .call (.request n server .completion params) :: b =
      x ++ .call (.request n other .completion json) :: y) : b = y := by
  have hnot {l : List Observation} (hl : n ∉ l.filterMap asked?) :
      .call (.request n other .completion json) ∉ l :=
    fun hm => hl (List.mem_filterMap.mpr ⟨_, hm, rfl⟩)
  rw [List.filterMap_append] at hn
  change (a.filterMap asked? ++ n :: b.filterMap asked?).Nodup at hn
  have hmid := (List.nodup_middle.mp hn).notMem
  simp only [List.mem_append, not_or] at hmid
  exact ((List.append_cons_inj_of_notMem (hnot hmid.1) (hnot hmid.2)).mp he).2.2

theorem Story.not_outdated {s : Session} {c : Round} {servers : List ServerId}
    {before since obs : List Observation} {notes : List Note}
    (h : Story s c servers before since notes) {server : ServerId} {n : Nat}
    (hp : c.pending.find? server = some n) (ho : ∀ o ∈ obs, o.kind ∉ [Kind.asking, .opened])
    (hn : ((s.trace ++ obs).filterMap asked?).Nodup) : ¬ Outdated (s.trace ++ obs) n := by
  obtain ⟨⟨old, sent, params, rfl, hsent⟩, _⟩ := h.pending server n hp
  rintro ⟨x, other, json, first, e, second, he, hopen, o, hm, hask⟩
  rw [h.trace, List.append_assoc, List.append_assoc, List.cons_append] at he hn
  have hb := request_unique hn he
  have hlater : ∀ p ∈ since ++ obs, p.kind ∉ [Kind.asking, .opened] := by
    intro p hp
    rcases List.mem_append.mp hp with hp | hp
    · have hq := h.quiet p hp
      simp only [List.mem_cons, List.not_mem_nil, or_false] at hq ⊢
      rcases hq with hq | hq | hq | hq | hq <;> simp [hq]
    · exact ho p hp
  have hs : e ∉ sent := fun hm => hsent e hm hopen
  have ht : e ∉ since ++ obs := fun hm => hlater e hm (by simp [hopen])
  rw [List.cons_append] at hb
  obtain ⟨_, _, rfl⟩ := (List.append_cons_inj_of_notMem hs ht).mp hb
  exact hlater o hm (by simp [hask])

theorem Outdated.asked {trace : List Observation} {n : Nat} (h : Outdated trace n) :
    n ∈ trace.filterMap asked? := by
  obtain ⟨old, server, params, first, e, second, rfl, _⟩ := h
  exact List.mem_filterMap.mpr ⟨_, List.mem_append_right _ List.mem_cons_self, rfl⟩

theorem freshHandle_runs (s : Session) : s.freshHandle.runs = 0 := by
  unfold freshHandle
  split <;> rfl

/-- Whatever completion request is cancelled where it was sent was pending. -/
theorem pending_of_cancel {s t : Session} {obs : List Observation} {n : Nat} (hs : Coherent s)
    (ht : Coherent t) (hc : t.cancellable = s.cancellable) (hobs : t.trace = s.trace ++ obs)
    (hn : n ∈ s.asked) (hm : .call (.cancel n) ∈ obs) : ∃ server, s.Pending server n := by
  have hf : t.freshHandle = s.freshHandle := by rw [freshHandle, freshHandle, hc]
  have h0 := s.freshHandle_runs
  obtain ⟨r, hr, hrc⟩ := hs.accounts.asked n hn
  have hnt : n ∈ t.asked := by
    rw [Session.asked, hobs, List.filterMap_append]
    exact List.mem_append_left _ hn
  obtain ⟨q, hq, hqc⟩ := ht.accounts.asked n hnt
  have hlt : r.handle.runs < q.handle.runs := by
    have hcs := hs.accounts.runs n
    have hct := ht.accounts.runs n
    rw [hr] at hcs
    rw [hq, cancels, hobs, List.filterMap_append, List.count_append, ← cancels, hcs] at hct
    have hpos : 0 < (obs.filterMap cancelled?).count n :=
      List.count_pos_iff.mpr (List.mem_filterMap.mpr ⟨_, hm, rfl⟩)
    simp only [Option.map_some, Option.getD_some] at hct
    omega
  -- The handle of a request that is pending or answered was never used.
  have fresh (he : q.handle = t.freshHandle) : False := by
    rw [he, hf, h0] at hlt
    exact Nat.not_lt_zero _ hlt
  cases hs.accounts.settled n r hr hrc with
  | pending hp => exact ⟨r.server, hp⟩
  | answered _ hrec =>
    have hrt : n ∈ t.recorded := by
      rw [Session.recorded, hobs, List.filterMap_append]
      exact List.mem_append_left _ hrec
    cases ht.accounts.settled n q hq hqc with
    | pending _ hu => exact absurd hrt hu
    | answered _ _ hd => exact (fresh hd).elim
    | cancelled _ hu => exact absurd hrt hu
  | cancelled _ _ _ hd =>
    cases ht.accounts.settled n q hq hqc with
    | pending _ _ hd' => exact (fresh hd').elim
    | answered _ _ hd' => exact (fresh hd').elim
    | cancelled _ _ _ hd' =>
      rw [hd, hd', hf] at hlt
      exact absurd hlt (Nat.lt_irrefl _)

/-- What is known of the past, whatever has happened. -/
structure Historic (s : Session) : Prop where
  coherent : Coherent s
  story : ∀ c, s.round = some c →
    ∃ servers before since notes, Story s c servers before since notes
  prompt : ∀ earlier later n, s.trace = earlier ++ .call (.cancel n) :: later → ¬ Outdated earlier n

theorem historic_setup (setup : Setup) : Historic setup.session where
  coherent := coherent_setup setup
  story := fun c hc => by cases hc
  prompt := fun earlier later n he => by
    have hm : .call (.cancel n) ∈ setup.session.trace := by
      rw [he]
      exact List.mem_append_right _ List.mem_cons_self
    simp [Setup.session, log] at hm

/-- An element of two lists in a row is in the second one or in the first. -/
theorem append_eq_append_cons {α : Type} {a b x y : List α} {o : α} (h : a ++ b = x ++ o :: y) :
    (∃ l, x = a ++ l ∧ b = l ++ o :: y) ∨ ∃ l, a = x ++ o :: l := by
  rcases List.append_eq_append_iff.mp h with ⟨l, hx, hb⟩ | ⟨l, ha, hl⟩
  · exact .inl ⟨l, hx, hb⟩
  · cases l with
    | nil => exact .inl ⟨[], by rw [ha, List.append_nil, List.append_nil], hl.symm⟩
    | cons p l =>
      obtain ⟨rfl, _⟩ := List.cons.inj hl
      exact .inr ⟨l, ha⟩

/-- A step that cancels requests sends none. -/
theorem Historic.prompt_step {s t : Session} {kinds : List Kind} (h : Historic s) (ht : Coherent t)
    (hc : t.cancellable = s.cancellable) (ha : Adds kinds s t)
    (hk : .cancel ∈ kinds → .asking ∉ kinds ∧ .opened ∉ kinds) (earlier later : List Observation)
    (n : Nat) (he : t.trace = earlier ++ .call (.cancel n) :: later) : ¬ Outdated earlier n := by
  obtain ⟨obs, hobs, hkinds⟩ := ha
  rw [hobs] at he
  rcases append_eq_append_cons he with ⟨l, rfl, hl⟩ | ⟨l, hs⟩
  · intro hout
    have hm : .call (.cancel n) ∈ obs := by
      rw [hl]
      exact List.mem_append_right _ List.mem_cons_self
    obtain ⟨hasking, hopened⟩ := hk (hkinds _ hm)
    have hcalm : ∀ o ∈ l, o.kind ∉ [Kind.asking, .opened] := by
      intro o ho hmem
      have hin := hkinds o (by rw [hl]; exact List.mem_append_left _ ho)
      simp only [List.mem_cons, List.not_mem_nil, or_false] at hmem
      rcases hmem with hmem | hmem
      · exact hasking (hmem ▸ hin)
      · exact hopened (hmem ▸ hin)
    have hl0 : l.filterMap asked? = [] := List.filterMap_eq_nil_iff.mpr fun o ho =>
      asked?_eq_none fun he => hcalm o ho (by simp [he])
    have hn := hout.asked
    rw [List.filterMap_append, hl0, List.append_nil] at hn
    obtain ⟨server, c, hround, hp⟩ := pending_of_cancel h.coherent ht hc hobs hn hm
    obtain ⟨servers, before, since, notes, hstory⟩ := h.story c hround
    refine hstory.not_outdated hp hcalm ?_ hout
    rw [List.filterMap_append, hl0, List.append_nil]
    exact h.coherent.accounts.once
  · exact h.prompt earlier l n hs

theorem Change.cancellable_eq {s t : Session} (h : Change s t) : t.cancellable = s.cancellable := by
  rw [h.frame]

/-- What leaves the round alone does not change its story. -/
theorem Historic.keep {s t : Session} (h : Historic s) (ht : Coherent t)
    (ha : Adds [.plain, .text, .cancel] s t) (hround : t.round = s.round)
    (hi : t.lastId = s.lastId) (hcanc : t.cancellable = s.cancellable) : Historic t := by
  refine ⟨ht, ?_, h.prompt_step ht hcanc ha (by simp)⟩
  intro c hc
  obtain ⟨servers, before, since, notes, hs⟩ := h.story c (hround ▸ hc)
  obtain ⟨more, hm⟩ := hs.extend ha hi
  exact ⟨servers, before, more, notes, hm⟩

theorem Change.historic {s t : Session} (hc : Change s t) (h : Historic s) : Historic t := by
  have ht := hc.coherent h.coherent
  have hcanc := hc.cancellable_eq
  rcases hc.round_cases with ⟨reason, rfl⟩ | ⟨trigger, hn, rfl⟩ | ⟨ha, hround, hi⟩
  · refine ⟨ht, fun c hc => ?_, h.prompt_step ht hcanc (Adds.giveUpRound s reason) (by simp)⟩
    rw [giveUpRound_round] at hc
    cases hc
  · exact ⟨ht, openRound_story trigger hn,
      h.prompt_step ht hcanc (Adds.openRound s trigger) (by simp)⟩
  · exact h.keep ht (ha.mono (by simp)) hround hi hcanc

/-- What happens to text that was taken out has nothing to do with the round. -/
theorem TextChange.round_eq {s t : Session} (hc : TextChange s t) :
    Adds [.plain, .text, .cancel] s t ∧ t.round = s.round ∧ t.lastId = s.lastId ∧
      t.cancellable = s.cancellable := by
  cases hc with
  | supersedeResolve =>
    unfold Session.supersedeResolve
    split
    next pending _ =>
      have hl : Adds [.plain] s
          { s.log .debug "accept" "Superseding pending resolve" with resolve := none } :=
        Adds.log s .debug "accept" "Superseding pending resolve" []
      refine ⟨(hl.mono (by simp)).trans ((Adds.cancel _ pending.number).mono (by simp)), ?_⟩
      rw [cancel_frame]
      exact ⟨rfl, rfl, rfl⟩
    next => exact ⟨.of_eq rfl, rfl, rfl, rfl⟩
  | removeInsertedWord => exact ⟨Adds.one rfl (by simp [kind]), rfl, rfl, rfl⟩
  | sendResolve payload expansion =>
    have hs : Adds [.plain] s (s.send payload.server .resolve payload.item.encode).1 :=
      Adds.send s payload.server .resolve _ (by simp [kind, Purpose.method])
    have hl : Adds [.plain] (s.send payload.server .resolve payload.item.encode).1
        (s.sendResolve payload expansion) := Adds.log _ .debug "accept" "Resolving accepted item" _
    refine ⟨(hs.trans hl).mono (by simp), ?_⟩
    have hf := s.send_frame payload.server .resolve payload.item.encode
    unfold Session.sendResolve
    generalize s.send payload.server .resolve payload.item.encode = result at hf
    obtain ⟨u, n⟩ := result
    dsimp only at hf
    rw [hf]
    exact ⟨rfl, rfl, rfl⟩
  | takeUp => exact ⟨.of_eq rfl, rfl, rfl, rfl⟩
  | conclude => exact ⟨Adds.emit _ _ (by simp [kind]), rfl, rfl, rfl⟩
  | expand e =>
    have restore (u : Session) : Adds [.plain, .text, .cancel] u (u.restoreLiteral e) :=
      Adds.one rfl (by simp [kind])
    unfold Session.expand
    split
    · split
      next engine _ =>
        have hcall : Adds [.plain, .text, .cancel] s (s.call (.expand engine.name e.snippet)) :=
          Adds.call _ _ (by simp [kind])
        exact ⟨hcall.trans ((Adds.log ..).mono (by simp)), rfl, rfl, rfl⟩
      next =>
        refine ⟨((Adds.report ..).mono (by simp)).trans (restore _), ?_⟩
        dsimp only [restoreLiteral, edit]
        rw [report_frame]
        exact ⟨rfl, rfl, rfl⟩
    · exact ⟨restore s, rfl, rfl, rfl⟩

theorem TextChange.historic {s t : Session} (hc : TextChange s t) (h : Historic s) :
    Historic t := by
  obtain ⟨ha, hround, hi, hcanc⟩ := hc.round_eq
  exact h.keep (hc.coherent h.coherent) ha hround hi hcanc

/-- The round without the server either goes on, is given up or is finished. -/
theorem detachFromRound_cases {s : Session} {c : Round} (hc : s.round = some c)
    (server : ServerId) :
    s.detachFromRound server = s.dropServer c server ∨
      s.detachFromRound server =
        { s.dropServer c server with round := none }.emit (.cancelled c.id .detached) ∨
      s.detachFromRound server = (s.dropServer c server).finishRound (c.drop server) ∧
        (c.drop server).pending.isEmpty = true := by
  unfold detachFromRound
  rw [hc]
  dsimp only
  split
  · exact .inl rfl
  · split
    · exact .inl rfl
    next he =>
      split
      · exact .inr (.inl rfl)
      · exact .inr (.inr ⟨rfl, by simpa using he⟩)

/-- How a change ends for the round: either nothing is shown and the round, if there still is one, has
a story, or a round all of whose servers have answered is finished. -/
def StoryCases (s t : Session) : Prop :=
  (Adds [.recorded, .detached, .cancel, .givenUp, .plain, .text] s t ∧ ∀ c, t.round = some c →
    ∃ servers before since notes, Story t c servers before since notes) ∨
  ∃ u c servers before since notes, t = u.finishRound c ∧ c.pending.isEmpty = true ∧
    Story u c servers before since notes ∧ u.matcher = s.matcher ∧
    Adds [.recorded, .detached, .cancel, .plain, .text] s u

theorem takeCompletion_story {s : Session} (h : Historic s) {place n : Nat} {server : ServerId}
    {id : RequestId} {reply : Reply}
    (hm : s.queue[place]? = some (.reply n server (.completion id) reply))
    (hl : s.isLive (.reply n server (.completion id) reply) = true) :
    StoryCases s
      (({ s with queue := s.queue.eraseIdx place } : Session).takeCompletion id server reply) := by
  obtain ⟨c, hround, rfl, hn⟩ := h.coherent.pending_of_live hm hl
  obtain ⟨servers, before, since, notes, hs⟩ := h.story c hround
  have hround' : ({ s with queue := s.queue.eraseIdx place } : Session).round = some c := hround
  rw [takeCompletion_eq reply hround' hn]
  extract_lets d u
  have hu : Adds [.recorded] s u := Adds.one rfl (by simp [kind])
  have hstory : Story u d servers before _ _ := hs.record hn reply rfl rfl
  split
  next he =>
    exact .inr ⟨u, d, servers, before, _, _, rfl, he, hstory, rfl, hu.mono (by simp)⟩
  next he =>
    refine .inl ⟨hu.mono (by simp), ?_⟩
    intro e he
    obtain rfl := Option.some.inj he
    exact ⟨servers, before, _, _, hstory⟩

/-- In `t` the round is still about the server, of which the trace already tells that it was
detached. -/
theorem detachFromRound_story {s t : Session} (h : Historic s)
    (hadds : Adds [.recorded, .detached, .cancel, .plain, .text] s t) (hround : t.round = s.round)
    (hmatcher : t.matcher = s.matcher) (server : ServerId) (hstory : ∀ {c servers before since notes},
      Story s c servers before since notes → ∃ more,
        Story t (c.drop server) servers before more (notes ++ [.detached server])) :
    StoryCases s (t.detachFromRound server) := by
  cases hc : s.round with
  | none =>
    have hn : t.round = none := hround.trans hc
    have he : t.detachFromRound server = t := by
      unfold detachFromRound
      rw [hn]
    rw [he]
    refine .inl ⟨hadds.mono (by simp), ?_⟩
    intro c hc
    cases hn.symm.trans hc
  | some c =>
    obtain ⟨servers, before, since, notes, hs⟩ := h.story c hc
    obtain ⟨more, hmore⟩ := hstory hs
    have hu := Adds.dropServer t c server
    have huf := t.dropServer_frame c server
    have hcases := detachFromRound_cases (hround.trans hc) server
    generalize t.dropServer c server = u at hu huf hcases
    have hur : u.round = some (c.drop server) := by rw [huf]
    have hui : u.lastId = t.lastId := by rw [huf]
    have hum : u.matcher = t.matcher := by rw [huf]
    obtain ⟨later, hlater⟩ := hmore.extend (hu.mono (by simp)) hui
    have hsu : Adds [.recorded, .detached, .cancel, .plain, .text] s u :=
      hadds.trans (hu.mono (by simp))
    rcases hcases with he | he | ⟨he, hempty⟩
    · rw [he]
      refine .inl ⟨hsu.mono (by simp), ?_⟩
      intro d hd
      obtain rfl := Option.some.inj (hur.symm.trans hd)
      exact ⟨servers, before, later, _, hlater⟩
    · rw [he]
      have hg : Adds [.givenUp] { u with round := none }
          ({ u with round := none }.emit (.cancelled c.id .detached)) :=
        Adds.emit _ _ (by simp [kind])
      have hsn : Adds [.recorded, .detached, .cancel, .plain, .text] s { u with round := none } :=
        hsu
      refine .inl ⟨(hsn.mono (by simp)).trans (hg.mono (by simp)), ?_⟩
      intro d hd
      cases hd
    · exact .inr ⟨u, c.drop server, servers, before, later, _, he, hempty, hlater,
        hum.trans hmatcher, hsu⟩

theorem RoundChange.story_cases {s t : Session} (hc : RoundChange s t) (h : Historic s) :
    StoryCases s t := by
  cases hc with
  | attach server capabilities options =>
    have ha := Adds.attach s server capabilities options
    refine .inl ⟨ha.mono (by simp), fun c hc => ?_⟩
    rw [attach_frame] at hc
    obtain ⟨servers, before, since, notes, hs⟩ := h.story c hc
    obtain ⟨more, hm⟩ := hs.extend (ha.mono (by simp)) (by rw [attach_frame])
    exact ⟨servers, before, more, notes, hm⟩
  | takeCompletion place n server id reply hm hl => exact takeCompletion_story h hm hl
  | detach server =>
    unfold Session.detach
    split
    next =>
      extract_lets t
      have ht : Adds [.detached] s t := Adds.one rfl (by simp [kind])
      have hsig := Adds.detachFromSignature t server
      have hf := t.detachFromSignature_frame server
      have hi : (t.detachFromSignature server).lastId = t.lastId := by rw [hf]
      have hround : (t.detachFromSignature server).round = s.round := by
        rw [hf]
        rfl
      have hmatcher : (t.detachFromSignature server).matcher = s.matcher := by
        rw [hf]
        rfl
      refine detachFromRound_story h ((ht.mono (by simp)).trans (hsig.mono (by simp))) hround hmatcher
        server fun {c servers before since notes} hs => ?_
      have hdrop : Story t (c.drop server) servers before _ _ := hs.detached server rfl rfl
      exact hdrop.extend (hsig.mono (by simp)) hi
    next => exact .inl ⟨.of_eq rfl, h.story⟩

theorem RoundChange.cancellable_eq {s t : Session} (h : RoundChange s t) :
    t.cancellable = s.cancellable := by
  cases h with
  | attach => rw [attach_frame]
  | detach => rw [detach_frame]
  | takeCompletion => rw [takeCompletion_frame]

theorem RoundChange.historic {s t : Session} (hc : RoundChange s t) (h : Historic s) :
    Historic t := by
  have ht := hc.coherent h.coherent
  refine ⟨ht, ?_, h.prompt_step ht hc.cancellable_eq hc.adds (by simp)⟩
  rcases hc.story_cases h with ⟨_, hs⟩ | ⟨u, c, _, _, _, _, rfl, _⟩
  · exact hs
  · intro d hd
    rw [finishRound_frame] at hd
    cases hd

theorem after_historic (setup : Setup) (actions : List Action) :
    Historic (setup.session.after actions) :=
  after_induction (fun _ _ hc h => hc.historic h) (fun _ _ hc h => hc.historic h)
    (fun _ _ hc h => hc.historic h) (historic_setup setup) actions

end Session
end Autocomplete

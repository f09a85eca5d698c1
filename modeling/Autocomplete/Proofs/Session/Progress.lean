import Autocomplete.Proofs.Session.Detachment
import Autocomplete.Proofs.Session.Outcome
import Autocomplete.Proofs.Session.Published

/-! A round that is under way always waits for somebody. Whoever takes the last server out of it, by an
answer or by detaching it, ends it in the same step, and so it is with signature help. -/
namespace Autocomplete

theorem Table.contains_ofList {κ ν : Type} [DecidableEq κ] [LE κ] [LT κ] [DecidableLT κ]
    [Std.IsLinearOrder κ] [Std.LawfulOrderLT κ] {pairs : List (κ × ν)} {k : κ} :
    (ofList pairs).contains k = true ↔ k ∈ pairs.map (·.1) := by
  rw [contains, ofList, find?_foldl_insert, find?_empty, Option.or_none, Option.isSome_map,
    List.find?_isSome]
  simp

theorem Table.isEmpty_eq_false {κ ν : Type} [DecidableEq κ] [LE κ] [LT κ] [Std.LawfulOrderLT κ]
    {t : Table κ ν} {k : κ} (h : t.contains k = true) : t.isEmpty = false := by
  refine Bool.eq_false_iff.mpr fun he => ?_
  rw [contains, (isEmpty_iff t).mp he k] at h
  cases h

theorem Table.isEmpty_ofList {κ ν : Type} [DecidableEq κ] [LE κ] [LT κ] [DecidableLT κ]
    [Std.IsLinearOrder κ] [Std.LawfulOrderLT κ] {pairs : List (κ × ν)} (h : pairs ≠ []) :
    (ofList pairs).isEmpty = false := by
  obtain ⟨e, rest, rfl⟩ := List.exists_cons_of_ne_nil h
  exact isEmpty_eq_false (contains_ofList.mpr List.mem_cons_self)

namespace Round

/-- A round waits for a server or holds its answer. -/
def Involves (c : Round) (server : ServerId) : Prop :=
  c.pending.contains server = true ∨ c.replies.contains server = true

theorem involves_record {c : Round} {server : ServerId} (h : c.pending.contains server = true)
    (reply : Reply) (x : ServerId) : (c.record server reply).Involves x ↔ c.Involves x := by
  unfold Involves
  rw [record, Table.contains_erase, Table.contains_insert]
  constructor
  · rintro (⟨_, hp⟩ | rfl | hr)
    · exact .inl hp
    · exact .inl h
    · exact .inr hr
  · intro hx
    by_cases he : server = x
    · exact .inr (.inl he)
    · exact hx.imp (fun hp => ⟨he, hp⟩) .inr

theorem involves_drop (c : Round) (server x : ServerId) :
    (c.drop server).Involves x ↔ server ≠ x ∧ c.Involves x := by
  unfold Involves
  rw [drop, Table.contains_erase, Table.contains_erase, and_or_left]

end Round

namespace Session
open Observation

/-- A round waits for somebody, for nobody who has answered, and is about attached servers only: those
that were asked when it was opened and have not been detached since. It is the last round that anything
was published about. -/
structure InProgress (s : Session) (c : Round) : Prop where
  waits : c.pending.isEmpty = false
  apart : ∀ x, c.pending.contains x = true → c.replies.contains x = false
  attached : ∀ x, c.Involves x → s.bindings.contains x = true
  requested : ∃ before servers since,
    s.trace = before ++ .event (.requested c.id c.trigger c.cursor servers) :: since ∧
      (∀ o ∈ since, o.round? = none) ∧
      ∀ x, c.Involves x ↔ x ∈ servers ∧ .note (.detached x) ∉ since

namespace InProgress

variable {s t : Session} {c : Round}

/-- What publishes nothing about rounds and detaches nobody leaves the round in progress. -/
theorem extend (h : s.InProgress c) {kinds : List Kind} (ha : Adds kinds s t)
    (hd : Kind.detached ∉ kinds) (ht : Tacit s t)
    (hb : ∀ x, s.bindings.contains x = true → t.bindings.contains x = true) : t.InProgress c := by
  refine ⟨h.waits, h.apart, fun x hx => hb x (h.attached x hx), ?_⟩
  obtain ⟨before, servers, since, htrace, hquiet, hservers⟩ := h.requested
  obtain ⟨obs, hobs, hk⟩ := ha
  obtain ⟨more, hmore, hr⟩ := ht
  obtain rfl : obs = more := List.append_cancel_left (hobs.symm.trans hmore)
  refine ⟨before, servers, since ++ obs, ?_, fun o hm => ?_, fun x => ?_⟩
  · rw [hobs, htrace, List.append_assoc, List.cons_append]
  · exact (List.mem_append.mp hm).elim (hquiet o) (hr o)
  · have hn : .note (.detached x) ∉ obs := fun hm => hd (hk _ hm)
    rw [hservers, List.mem_append, or_iff_left hn]

theorem record (h : s.InProgress c) {server : ServerId} {n : Nat} (reply : Reply)
    (hn : c.pending.find? server = some n)
    (ht : t.trace = s.trace ++ [.note (.recorded n server reply)]) (hb : t.bindings = s.bindings)
    (hw : (c.record server reply).pending.isEmpty = false) :
    t.InProgress (c.record server reply) := by
  have hs : c.pending.contains server = true := Option.isSome_of_eq_some hn
  have ha : Adds [.recorded] s t := .one ht (by simp [kind])
  have he := h.extend ha (by simp) (.one ht rfl) (fun x hx => hb ▸ hx)
  refine ⟨hw, fun x hx => ?_, fun x hx => ?_, ?_⟩
  · obtain ⟨hne, hx⟩ := Table.contains_erase.mp hx
    refine Bool.eq_false_iff.mpr fun hr => ?_
    rcases Table.contains_insert.mp hr with hr | hr
    · exact hne hr
    · exact Bool.false_ne_true ((h.apart x hx).symm.trans hr)
  · exact he.attached x ((Round.involves_record hs reply x).mp hx)
  · obtain ⟨before, servers, since, htrace, hquiet, hservers⟩ := he.requested
    exact ⟨before, servers, since, htrace, hquiet, fun x =>
      (Round.involves_record hs reply x).trans (hservers x)⟩

/-- A round goes on without a server that is detached. -/
theorem drop (h : s.InProgress c) (server : ServerId)
    (ht : t.trace = s.trace ++ [.note (.detached server)])
    (hb : t.bindings = s.bindings.erase server) (hw : (c.drop server).pending.isEmpty = false) :
    t.InProgress (c.drop server) := by
  refine ⟨hw, fun x hx => ?_, fun x hx => ?_, ?_⟩
  · obtain ⟨_, hx⟩ := Table.contains_erase.mp hx
    refine Bool.eq_false_iff.mpr fun hr => ?_
    exact Bool.false_ne_true ((h.apart x hx).symm.trans (Table.contains_erase.mp hr).2)
  · obtain ⟨hne, hx⟩ := (c.involves_drop server x).mp hx
    rw [hb]
    exact Table.contains_erase.mpr ⟨hne, h.attached x hx⟩
  · obtain ⟨before, servers, since, htrace, hquiet, hservers⟩ := h.requested
    refine ⟨before, servers, since ++ [.note (.detached server)], ?_, fun o hm => ?_, fun x => ?_⟩
    · rw [ht, htrace, List.append_assoc, List.cons_append]
      rfl
    · rcases List.mem_append.mp hm with hm | hm
      · exact hquiet o hm
      · rw [List.mem_singleton.mp hm]
        rfl
    · have hx : .note (.detached x) ∈ [Observation.note (.detached server)] ↔ server = x := by
        simp [eq_comm]
      rw [c.involves_drop server x, hservers x, List.mem_append, hx]
      tauto

end InProgress

/-- Whoever is attached stays attached. -/
theorem Change.keeps_bindings {s t : Session} (hc : Change s t) {server : ServerId}
    (h : s.bindings.contains server = true) : t.bindings.contains server = true := by
  rcases hc.bindings_cases with he | ⟨x, b, commands, -, he⟩
  · rwa [he]
  · rw [he]
    exact Table.contains_insert.mpr (.inr h)

/-- Only attached servers are asked. -/
theorem Coherent.attached_of_mem {s : Session} (h : Coherent s) {p : Binding → Bool} {x : ServerId}
    (hx : x ∈ (s.bindings.values.filter p).map (·.server)) : s.bindings.contains x = true := by
  obtain ⟨b, hb, rfl⟩ := List.mem_map.mp hx
  obtain ⟨y, hy⟩ := (Table.mem_values_iff _ _).mp (List.mem_filter.mp hb).1
  rw [h.bindings y b hy]
  exact Option.isSome_of_eq_some hy

theorem openRound_inProgress {s : Session} (h : Coherent s) (trigger : Trigger)
    (hn : s.round = none) (c : Round) (hc : (s.openRound trigger).round = some c) :
    (s.openRound trigger).InProgress c := by
  have hbind : (s.openRound trigger).bindings = s.bindings := by rw [openRound_frame]
  revert hc hbind
  unfold openRound
  extract_lets cursor id t
  have hf := askAll_frame (.completion id) (fun s b => s.completionParams trigger b) t
    (t.bindings.values.filter (·.completes))
  have hkeys := askAll_servers (.completion id) (fun s b => s.completionParams trigger b)
    (t.bindings.values.filter (·.completes)) t
  split
  next u asked hu =>
    rw [hu] at hf hkeys
    dsimp only at hf hkeys
    split
    next =>
      intro hc
      have hround : u.round = none := by rw [hf]; exact hn
      cases hround.symm.trans hc
    next hne =>
      extract_lets tracked v w pending round
      intro hc hbind
      obtain rfl := Option.some.inj hc
      have hinv (x : ServerId) : round.Involves x ↔ x ∈ pending.keys := by
        rw [Table.mem_keys_iff]
        constructor
        · rintro (hp | hr)
          · exact Option.isSome_iff_exists.mp hp
          · cases hr
        · rintro ⟨n, hp⟩
          exact .inl (Option.isSome_of_eq_some hp)
      refine ⟨Table.isEmpty_ofList (fun he => hne (by rw [he]; rfl)), fun _ _ => rfl, fun x hx => ?_,
        w.trace, pending.keys, [], rfl, fun _ hm => absurd hm List.not_mem_nil, fun x => ?_⟩
      · rw [hbind]
        obtain ⟨n, hp⟩ := (Table.mem_keys_iff _ _).mp ((hinv x).mp hx)
        have hm := List.mem_map_of_mem (f := Prod.fst) (Table.mem_of_find?_ofList hp)
        rw [hkeys] at hm
        exact h.attached_of_mem hm
      · rw [hinv, and_iff_left List.not_mem_nil]

theorem Change.signatureRound_cases {s t : Session} (hc : Change s t) :
    t.signatureRound = s.signatureRound ∨
      ∀ g, t.signatureRound = some g → g.pending.isEmpty = false := by
  cases hc with
  | report => exact .inl (by rw [report_frame])
  | registerCommand => exact .inl (by rw [registerCommand_frame])
  | giveUpRound => exact .inl (by rw [giveUpRound_frame])
  | openRound => exact .inl (by rw [openRound_frame])
  | sendCommand => exact .inl (by rw [send_frame])
  | answer => exact .inl (by rw [answer_frame])
  | cancelSignatureRound =>
    right
    intro g hg
    rw [cancelSignatureRound_frame] at hg
    cases hg
  | openSignatureRound trigger hs =>
    right
    intro g hg
    have hf := askAll_frame .signatureHelp (fun s b => s.signatureParams trigger b) s
      (s.bindings.values.filter (wantsSignature trigger))
    unfold Session.openSignatureRound at hg
    dsimp only at hg
    split at hg
    · rw [hf, hs] at hg
      cases hg
    next hne =>
      obtain rfl := Option.some.inj hg
      exact Table.isEmpty_ofList fun he => hne (by rw [he]; rfl)
  | takeSignature place number server reply =>
    rcases takeSignature_cases { s with queue := s.queue.eraseIdx place } server reply with
      he | ⟨g, _, he⟩
    · exact .inl (by rw [he])
    · right
      intro d hd
      rw [he] at hd
      split at hd
      · rw [finishSignatureRound_frame] at hd
        cases hd
      next hne =>
        obtain rfl := Option.some.inj hd
        exact Bool.eq_false_iff.mpr hne
  | _ => exact .inl rfl

theorem TextChange.signatureRound_eq {s t : Session} (hc : TextChange s t) :
    t.signatureRound = s.signatureRound := by
  rw [hc.frame]

theorem detachFromSignature_signatureRound (s : Session) (server : ServerId) :
    (s.detachFromSignature server).signatureRound = s.signatureRound ∨
      ∀ g, (s.detachFromSignature server).signatureRound = some g → g.pending.isEmpty = false := by
  rcases s.detachFromSignature_cases server with ⟨he, _⟩ | ⟨g, n, _, _, he⟩
  · exact .inl (by rw [he])
  · right
    intro d hd
    rw [he] at hd
    dsimp only at hd
    split at hd
    · rw [finishSignatureRound_frame] at hd
      cases hd
    next hne =>
      rw [cancel_frame] at hd
      obtain rfl := Option.some.inj hd
      exact Bool.eq_false_iff.mpr hne

/-- A server is no longer attached, but rounds still are about it. -/
def unbind (s : Session) (server : ServerId) : Session :=
  { s with bindings := s.bindings.erase server }.note (.detached server)

theorem detach_eq {s : Session} {server : ServerId} (h : s.bindings.contains server = true) :
    s.detach server = ((s.unbind server).detachFromSignature server).detachFromRound server := by
  unfold detach
  rw [if_pos h]
  rfl

theorem detachFromRound_eq {s : Session} {c : Round} (hc : s.round = some c)
    (hw : c.pending.isEmpty = false) (server : ServerId) :
    s.detachFromRound server =
      let u := s.dropServer c server
      if (c.drop server).pending.isEmpty = false then u
      else if (c.drop server).replies.isEmpty then
        { u with round := none }.emit (.cancelled c.id .detached)
      else u.finishRound (c.drop server) := by
  unfold detachFromRound
  rw [hc]
  dsimp only
  by_cases he : (c.drop server).pending.isEmpty = false
  · rw [if_pos he]
    split
    · rfl
    · rw [if_pos (by rw [he]; rfl)]
  · have hn : (c.pending.find? server).isNone = false := by
      -- Otherwise nobody was waited for before either.
      refine Bool.eq_false_iff.mpr fun hn => he ?_
      change (c.pending.erase server).isEmpty = false
      rw [Table.erase_eq_self (Option.isNone_iff_eq_none.mp hn)]
      exact hw
    rw [if_neg he, if_neg (by rw [hn]; simp), if_neg (by simpa using he)]

theorem detachFromRound_round {s : Session} {c : Round} (hc : s.round = some c)
    (hw : c.pending.isEmpty = false) (server : ServerId) :
    (s.detachFromRound server).round =
      if (c.drop server).pending.isEmpty then none else some (c.drop server) := by
  rw [detachFromRound_eq hc hw]
  dsimp only
  by_cases he : (c.drop server).pending.isEmpty = true
  · rw [if_neg (by rw [he]; simp), if_pos he]
    split
    · rfl
    · rw [finishRound_frame]
  · rw [if_pos (Bool.eq_false_iff.mpr he), if_neg he, dropServer_frame]

structure Advancing (s : Session) : Prop where
  remembers : Remembers s
  round : ∀ c, s.round = some c → s.InProgress c
  signature : ∀ g, s.signatureRound = some g → g.pending.isEmpty = false

theorem advancing_setup (setup : Setup) : Advancing setup.session where
  remembers := remembers_setup setup
  round c hc := by cases hc
  signature g hg := by cases hg

theorem Change.advancing {s t : Session} (hc : Change s t) (h : Advancing s) : Advancing t := by
  refine ⟨hc.remembers h.remembers, fun c ht => ?_, fun g hg => ?_⟩
  · rcases hc.round_step with ⟨reason, rfl⟩ | ⟨trigger, hn, rfl⟩ | ⟨ha, hq, hr, _⟩
    · rw [giveUpRound_round] at ht
      cases ht
    · exact openRound_inProgress h.remembers.coherent trigger hn c ht
    · exact (h.round c (hr ▸ ht)).extend ha (by simp) hq fun _ hx => hc.keeps_bindings hx
  · rcases hc.signatureRound_cases with he | hw
    · exact h.signature g (he ▸ hg)
    · exact hw g hg

theorem TextChange.advancing {s t : Session} (hc : TextChange s t) (h : Advancing s) :
    Advancing t := by
  obtain ⟨ha, hr, _⟩ := hc.round_eq
  refine ⟨hc.remembers h.remembers, fun c ht => ?_, fun g hg => ?_⟩
  · exact (h.round c (hr ▸ ht)).extend ha (by simp) hc.tacit fun _ hx => hc.bindings_eq ▸ hx
  · exact h.signature g (hc.signatureRound_eq ▸ hg)

theorem detach_advancing {s : Session} (h : Advancing s) (server : ServerId) :
    Advancing (s.detach server) := by
  by_cases hs : s.bindings.contains server = true
  case neg =>
    have he : s.detach server = s := by simp [detach, hs]
    rwa [he]
  have ht := detach_remembers h.remembers server
  rw [detach_eq hs] at ht ⊢
  refine ⟨ht, fun d hd => ?_, fun g hg => ?_⟩
  · have hf := (s.unbind server).detachFromSignature_frame server
    have ha := Adds.detachFromSignature (s.unbind server) server
    have hq := detachFromSignature_tacit (s.unbind server) server
    generalize (s.unbind server).detachFromSignature server = u at *
    have hur : u.round = s.round := by rw [hf]; rfl
    have hub : u.bindings = (s.unbind server).bindings := by rw [hf]
    cases hc : s.round with
    | none =>
      have hn : u.detachFromRound server = u := by simp only [detachFromRound, hur, hc]
      rw [hn, hur, hc] at hd
      cases hd
    | some c =>
      have hw := (h.round c hc).waits
      rw [detachFromRound_round (hur.trans hc) hw] at hd
      split at hd
      · cases hd
      next hne =>
        have hne := Bool.eq_false_iff.mpr hne
        obtain rfl := Option.some.inj hd
        have hdrop : (s.unbind server).InProgress (c.drop server) :=
          (h.round c hc).drop server rfl rfl hne
        have hu := hdrop.extend ha (by simp) hq fun x hx => hub ▸ hx
        have hd := Adds.dropServer u c server
        rw [detachFromRound_eq (hur.trans hc) hw, if_pos hne]
        refine hu.extend hd (by simp) (hd.tacit (by simp) (by simp) (by simp)) fun x hx => ?_
        rw [dropServer_frame]
        exact hx
  · rw [detachFromRound_frame] at hg
    rcases detachFromSignature_signatureRound (s.unbind server) server with he | hw
    · exact h.signature g (he ▸ hg)
    · exact hw g hg

theorem takeCompletion_advancing {s : Session} (h : Advancing s) {place n : Nat}
    {server : ServerId} {id : RequestId} {reply : Reply}
    (hm : s.queue[place]? = some (.reply n server (.completion id) reply))
    (hl : s.isLive (.reply n server (.completion id) reply) = true) :
    Advancing ({ s with queue := s.queue.eraseIdx place }.takeCompletion id server reply) := by
  have ht := (RoundChange.takeCompletion s place n server id reply hm hl).remembers h.remembers
  refine ⟨ht, fun d hd => ?_, fun g hg => ?_⟩
  · obtain ⟨c, hc, rfl, hn⟩ := h.remembers.coherent.pending_of_live hm hl
    have hu : ({ s with queue := s.queue.eraseIdx place } : Session).round = some c := hc
    rw [takeCompletion_eq reply hu hn] at hd ⊢
    dsimp only at hd ⊢
    split at hd
    · rw [finishRound_frame] at hd
      cases hd
    next hne =>
      rw [if_neg hne]
      obtain rfl := Option.some.inj hd
      exact (h.round c hc).record reply hn rfl rfl (Bool.eq_false_iff.mpr hne)
  · rw [takeCompletion_frame] at hg
    exact h.signature g hg

theorem RoundChange.advancing {s t : Session} (hc : RoundChange s t) (h : Advancing s) :
    Advancing t := by
  have ht := hc.remembers h.remembers
  cases hc with
  | attach server capabilities options =>
    have ha := Adds.attach s server capabilities options
    refine ⟨ht, fun c hc => ?_, fun g hg => ?_⟩
    · rw [attach_frame] at hc
      have hq := attach_tacit s server capabilities options
      refine (h.round c hc).extend ha (by simp) hq fun x hx => ?_
      rw [attach_frame]
      exact Table.contains_insert.mpr (.inr hx)
    · rw [attach_frame] at hg
      exact h.signature g hg
  | detach server => exact detach_advancing h server
  | takeCompletion place n server id reply hm hl => exact takeCompletion_advancing h hm hl

theorem after_advancing (setup : Setup) (actions : List Action) :
    Advancing (setup.session.after actions) :=
  after_induction (fun _ _ hc h => hc.advancing h) (fun _ _ hc h => hc.advancing h)
    (fun _ _ hc h => hc.advancing h) (advancing_setup setup) actions

/-- The answer that a message holds is put into the round. -/
theorem Advancing.deliver_completion {s : Session} (h : Advancing s) {place n : Nat}
    {server : ServerId} {id : RequestId} {reply : Reply}
    (hm : s.queue[place]? = some (.reply n server (.completion id) reply))
    (hl : s.isLive (.reply n server (.completion id) reply) = true) :
    ∃ c, s.round = some c ∧ c.id = id ∧ c.pending.find? server = some n ∧
      let d := c.record server reply
      let t := ({ s with queue := s.queue.eraseIdx place, round := some d } : Session).note
        (.recorded n server reply)
      s.deliver place = (if d.pending.isEmpty then t.finishRound d else t) ∧
        (s.deliver place).round = if d.pending.isEmpty then none else some d := by
  obtain ⟨c, hc, rfl, hn⟩ := h.remembers.coherent.pending_of_live hm hl
  have hu : ({ s with queue := s.queue.eraseIdx place } : Session).round = some c := hc
  have hd : s.deliver place =
      ({ s with queue := s.queue.eraseIdx place } : Session).takeCompletion c.id server reply := by
    rw [deliver_eq hm, hl]
    rfl
  rw [takeCompletion_eq reply hu hn] at hd
  refine ⟨c, hc, rfl, hn, hd, ?_⟩
  rw [hd]
  dsimp only
  split
  · rw [finishRound_frame]
  · rfl

theorem Advancing.deliver_signatureHelp {s : Session} (h : Advancing s) {place n : Nat}
    {server : ServerId} {reply : Reply}
    (hm : s.queue[place]? = some (.reply n server .signatureHelp reply))
    (hl : s.isLive (.reply n server .signatureHelp reply) = true) :
    ∃ g, s.signatureRound = some g ∧ g.pending.find? server = some n ∧
      let d := g.record server reply
      let t : Session := { s with queue := s.queue.eraseIdx place }
      s.deliver place =
          (if d.pending.isEmpty then t.finishSignatureRound d
           else { t with signatureRound := some d }) ∧
        (s.deliver place).signatureRound = if d.pending.isEmpty then none else some d := by
  obtain ⟨r, ho, rfl, hp, _⟩ := h.remembers.outstanding_of_live hm hl
  obtain ⟨g, hg, hn⟩ := h.remembers.help n r ho hp
  have hu : ({ s with queue := s.queue.eraseIdx place } : Session).signatureRound = some g := hg
  have hd : s.deliver place =
      ({ s with queue := s.queue.eraseIdx place } : Session).takeSignature r.server reply := by
    rw [deliver_eq hm, hl]
    rfl
  rw [takeSignature_eq reply hu hn] at hd
  refine ⟨g, hg, hn, hd, ?_⟩
  rw [hd]
  dsimp only
  split
  · rw [finishSignatureRound_frame]
  · rfl

theorem Advancing.detach_round {s : Session} (h : Advancing s) {c : Round} {server : ServerId}
    (hc : s.round = some c) (attached : s.bindings.contains server = true) :
    let d := c.drop server
    let u := ((s.unbind server).detachFromSignature server).dropServer c server
    s.detach server =
        (if d.pending.isEmpty = false then u
         else if d.replies.isEmpty then { u with round := none }.emit (.cancelled c.id .detached)
         else u.finishRound d) ∧
      (s.detach server).round = if d.pending.isEmpty then none else some d := by
  have hr : ((s.unbind server).detachFromSignature server).round = some c := by
    rw [detachFromSignature_frame]
    exact hc
  have hw := (h.round c hc).waits
  rw [detach_eq attached]
  exact ⟨detachFromRound_eq hr hw server, detachFromRound_round hr hw server⟩

theorem Advancing.detach_signatureRound {s : Session} (h : Advancing s) {g : SignatureRound}
    {server : ServerId} {n : Nat} (hg : s.signatureRound = some g)
    (hn : g.pending.find? server = some n) :
    let d := g.without server
    let u := ({ s.unbind server with signatureRound := some d } : Session).cancel n
    s.detach server =
        (if d.pending.isEmpty then u.finishSignatureRound d else u).detachFromRound server ∧
      (s.detach server).signatureRound = if d.pending.isEmpty then none else some d := by
  have attached := (h.remembers.asked g server n hg hn).1
  have he : (s.unbind server).detachFromSignature server =
      let u := ({ s.unbind server with signatureRound := some (g.without server) } : Session).cancel n
      if (g.without server).pending.isEmpty then u.finishSignatureRound (g.without server)
      else u := by
    rcases (s.unbind server).detachFromSignature_cases server with ⟨_, hnone⟩ | ⟨e, k, he, hk, hd⟩
    · rw [hnone g hg] at hn
      cases hn
    · obtain rfl := Option.some.inj (hg.symm.trans he)
      obtain rfl := Option.some.inj (hn.symm.trans hk)
      exact hd
  rw [detach_eq attached, he]
  refine ⟨rfl, ?_⟩
  rw [detachFromRound_frame]
  dsimp only
  split
  · rw [finishSignatureRound_frame]
  · rw [cancel_frame]

/-- In every run, whatever round is under way waits for somebody, so that it goes on. The answer of the
last server, or detaching it, ends it at once: with the answers that it holds, or, if there are none,
as given up. What is told at such an end is the merge of these answers, unless the user has left. -/
theorem rounds_neverStuck (setup : Setup) (past : List Action) :
    let s := setup.session.after past
    (∀ c, s.round = some c → s.InProgress c) ∧
    (∀ g, s.signatureRound = some g → g.pending.isEmpty = false) ∧
    (∀ place n server id reply,
      s.queue[place]? = some (.reply n server (.completion id) reply) →
      s.isLive (.reply n server (.completion id) reply) = true →
      ∃ c, s.round = some c ∧ c.id = id ∧ c.pending.find? server = some n ∧
        let d := c.record server reply
        let t := ({ s with queue := s.queue.eraseIdx place, round := some d } : Session).note
          (.recorded n server reply)
        s.deliver place = (if d.pending.isEmpty then t.finishRound d else t) ∧
          (s.deliver place).round = if d.pending.isEmpty then none else some d) ∧
    (∀ c server, s.round = some c → s.bindings.contains server = true →
      let d := c.drop server
      let u := ((s.unbind server).detachFromSignature server).dropServer c server
      s.detach server =
          (if d.pending.isEmpty = false then u
           else if d.replies.isEmpty then { u with round := none }.emit (.cancelled c.id .detached)
           else u.finishRound d) ∧
        (s.detach server).round = if d.pending.isEmpty then none else some d) ∧
    (∀ (v : Session) (d : Round),
      let cursor := v.buffer.cursor
      let line := v.buffer.currentLine
      let merged := merge ⟨cursor.line, line, cursor.column, naiveStart line cursor.column⟩
        d.replies v.bindings v.matcher
      let roundTrip := Duration.ofMilliseconds (v.now - d.started)
      (v.finishRound d).outcomes =
        if v.buffer.inserting = false ∨ cursor.line ≠ d.cursor.line then v.outcomes
        else (merged.errors.foldl (reportFailure d.id) v).outcomes ++
          if merged.entries.isEmpty && !v.popup.visible then []
          else [.call (.present merged.startColumn merged.entries),
            .event (.resultsShown d.id merged.startColumn merged.entries.length merged.isIncomplete
              roundTrip.milliseconds)]) ∧
    (∀ place n server reply,
      s.queue[place]? = some (.reply n server .signatureHelp reply) →
      s.isLive (.reply n server .signatureHelp reply) = true →
      ∃ g, s.signatureRound = some g ∧ g.pending.find? server = some n ∧
        let d := g.record server reply
        let t : Session := { s with queue := s.queue.eraseIdx place }
        s.deliver place =
            (if d.pending.isEmpty then t.finishSignatureRound d
             else { t with signatureRound := some d }) ∧
          (s.deliver place).signatureRound = if d.pending.isEmpty then none else some d) ∧
    ∀ g server n, s.signatureRound = some g → g.pending.find? server = some n →
      let d := g.without server
      let u := ({ s.unbind server with signatureRound := some d } : Session).cancel n
      s.detach server =
          (if d.pending.isEmpty then u.finishSignatureRound d else u).detachFromRound server ∧
        (s.detach server).signatureRound = if d.pending.isEmpty then none else some d := by
  intro s
  have h : Advancing s := after_advancing setup past
  refine ⟨h.round, h.signature, ?_, ?_, fun v d => v.finishRound_outcomes d, ?_, ?_⟩
  · intro place n server id reply hm hl
    exact h.deliver_completion hm hl
  · intro c server hc attached
    exact h.detach_round hc attached
  · intro place n server reply hm hl
    exact h.deliver_signatureHelp hm hl
  · intro g server n hg hn
    exact h.detach_signatureRound hg hn

end Session
end Autocomplete

import Autocomplete.Proofs.Merge
import Autocomplete.Proofs.Protocol
import Autocomplete.Proofs.Session.Progress
import Autocomplete.Proofs.Session.Sending

/-! What a session publishes keeps to the protocol. Whatever is published about a round comes from the
change that opens it or the one that ends it, and in between nothing is. -/
namespace Autocomplete

namespace Session
open Observation

theorem Adds.events_eq {kinds : List Kind} {s t : Session} (h : Adds kinds s t)
    (hk : kinds ⊆ [.asking, .cancel]) : t.events = s.events := by
  refine h.filterMap_eq fun o ho => ?_
  have ho := hk ho
  cases o with
  | event e => cases e <;> simp [kind] at ho
  | _ => rfl

theorem InProgress.untold {s : Session} {c : Round} (h : s.InProgress c) (hp : Protocol s.events) :
    ∃ servers, Untold s.events c.id servers ∧ ∀ x, c.Involves x → x ∈ servers := by
  obtain ⟨before, servers, since, htrace, hquiet, hservers⟩ := h.requested
  have he : s.events = before.filterMap event? ++
      .requested c.id c.trigger c.cursor servers :: since.filterMap event? := by
    rw [events, htrace, List.filterMap_append]
    rfl
  refine ⟨servers, ?_, fun x hx => ((hservers x).mp hx).1⟩
  rw [he] at hp ⊢
  exact .of_since hp (quiet_events hquiet)

theorem Tacit.continues {s t : Session} (h : Tacit s t) (hp : Protocol s.events) :
    Continues s.events t.events := by
  obtain ⟨more, ht, hq⟩ := h.events
  rw [ht]
  exact .quiet hp hq

theorem giveUpRound_continues {s : Session} (h : ∀ c, s.round = some c → s.InProgress c)
    (hp : Protocol s.events) (reason : CancelReason) :
    Continues s.events (s.giveUpRound reason).events := by
  unfold giveUpRound
  split
  next c hc =>
    obtain ⟨servers, hu, _⟩ := (h c hc).untold hp
    have ha := Adds.cancelAll { s with round := none } c.asked c.pending
    rw [emit_events, ha.events_eq (by simp)]
    exact .cancelled hp hu reason
  · exact .refl hp

theorem finishRound_continues {s : Session} {c : Round} {servers : List ServerId}
    (hp : Protocol s.events) (hu : Untold s.events c.id servers)
    (hs : ∀ x, c.replies.contains x = true → x ∈ servers) :
    Continues s.events (s.finishRound c).events := by
  rcases s.finishRound_events c with he | ⟨shown, he, hshown⟩
  · rw [he]
    exact .refl hp
  · have hfailed (f : ServerId × ResponseError) (hf : f ∈ MergeRequest.errors c.replies) :
        f.1 ∈ servers := hs f.1 (Option.isSome_of_eq_some (MergeRequest.mem_errors.mp hf))
    obtain ⟨hfp, hfr⟩ := hp.failures hu.running hfailed MergeRequest.errors_pairwise
      fun f _ => hu.unfailed f.1
    rw [he]
    have hf : Continues s.events (s.events ++
        (MergeRequest.errors c.replies).map fun f => .requestFailed c.id f.1 f.2) := by
      refine .append hfp fun e hm => ?_
      obtain ⟨f, _, rfl⟩ := List.mem_map.mp hm
      rfl
    rcases hshown with rfl | ⟨start, count, incomplete, latency, rfl⟩
    · rwa [List.append_nil]
    · refine hf.trans (.append (hfp.snoc ⟨servers, hfr⟩) fun e hm => ?_)
      rw [List.mem_singleton.mp hm]
      rfl

theorem detach_continues {s : Session} (h : Advancing s) (hp : Protocol s.events)
    (server : ServerId) : Continues s.events (s.detach server).events := by
  by_cases hs : s.bindings.contains server = true
  case neg =>
    have he : s.detach server = s := by simp [detach, hs]
    rw [he]
    exact .refl hp
  rw [detach_eq hs]
  have hunbind : (s.unbind server).events = s.events :=
    Tells.events_eq (.one rfl rfl)
  have hf := (s.unbind server).detachFromSignature_frame server
  have hq := detachFromSignature_tacit (s.unbind server) server
  generalize (s.unbind server).detachFromSignature server = u at *
  have hround : u.round = s.round := by rw [hf]; rfl
  obtain ⟨more, hmore, hquiet⟩ := hq.events
  rw [hunbind] at hmore
  have hu : Continues s.events u.events := hmore ▸ .quiet hp hquiet
  refine hu.trans ?_
  cases hc : s.round with
  | none =>
    have hn : u.detachFromRound server = u := by simp only [detachFromRound, hround, hc]
    rw [hn]
    exact .refl hu.protocol
  | some c =>
    have hi := h.round c hc
    obtain ⟨servers, huntold, hservers⟩ := hi.untold hp
    have huntold : Untold u.events c.id servers := hmore ▸ huntold.quiet hquiet
    have hd : (u.dropServer c server).events = u.events :=
      (Adds.dropServer u c server).events_eq (by simp)
    rw [detachFromRound_eq (hround.trans hc) hi.waits]
    dsimp only
    split
    · rw [hd]
      exact .refl hu.protocol
    · split
      · rw [emit_events]
        change Continues u.events ((u.dropServer c server).events ++ _)
        rw [hd]
        exact .cancelled hu.protocol huntold .detached
      · have hx := finishRound_continues (c := c.drop server) (hd ▸ hu.protocol) (hd ▸ huntold)
          fun x hx => hservers x ((c.involves_drop server x).mp (.inr hx)).2
        rwa [hd] at hx

theorem takeCompletion_continues {s : Session} (h : Advancing s) (hp : Protocol s.events)
    {place n : Nat} {server : ServerId} {id : RequestId} {reply : Reply}
    (hm : s.queue[place]? = some (.reply n server (.completion id) reply))
    (hl : s.isLive (.reply n server (.completion id) reply) = true) :
    Continues s.events
      ({ s with queue := s.queue.eraseIdx place }.takeCompletion id server reply).events := by
  obtain ⟨c, hc, rfl, hn⟩ := h.remembers.coherent.pending_of_live hm hl
  obtain ⟨servers, hu, hservers⟩ := (h.round c hc).untold hp
  rw [takeCompletion_eq (s := { s with queue := s.queue.eraseIdx place }) reply hc hn]
  extract_lets d t
  have ht : t.events = s.events := Tells.events_eq (.one rfl rfl)
  have hasked : c.pending.contains server = true := Option.isSome_of_eq_some hn
  split
  · have hx := finishRound_continues (c := d) (ht ▸ hp) (ht ▸ hu) fun x hx =>
      hservers x ((Round.involves_record hasked reply x).mp (.inr hx))
    rwa [ht] at hx
  · rw [ht]
    exact .refl hp

theorem RoundChange.lastId_eq {s t : Session} (hc : RoundChange s t) : t.lastId = s.lastId := by
  cases hc with
  | attach => rw [attach_frame]
  | detach => rw [detach_frame]
  | takeCompletion => rw [takeCompletion_frame]

theorem RoundChange.continues {s t : Session} (hc : RoundChange s t) (h : Advancing s)
    (hp : Protocol s.events) : Continues s.events t.events := by
  cases hc with
  | attach => exact (attach_tacit ..).continues hp
  | detach server => exact detach_continues h hp server
  | takeCompletion place n server id reply hm hl => exact takeCompletion_continues h hp hm hl

/-- When no server is asked, there is no round, and only this is logged. -/
theorem openRound_events (s : Session) (trigger : Trigger) :
    let completing := (s.bindings.values.filter (·.completes)).map (·.server)
    (completing = [] ∧ (s.openRound trigger).events = s.events) ∨
      ∃ servers : List ServerId, (s.openRound trigger).events =
          s.events ++ [.requested s.lastId.next trigger s.buffer.cursor servers] ∧
        servers ≠ [] ∧ servers.Pairwise (· < ·) ∧ ∀ x, x ∈ servers ↔ x ∈ completing := by
  intro completing
  unfold openRound
  extract_lets cursor id t
  have ha : Adds [.asking] t _ :=
    .askAll (.completion id) (fun s b => s.completionParams trigger b)
      (t.bindings.values.filter (·.completes)) t (by simp [kind, Purpose.method])
  have hkeys := askAll_servers (.completion id) (fun s b => s.completionParams trigger b)
    (t.bindings.values.filter (·.completes)) t
  have ht : t.events = s.events := rfl
  split
  next u asked hu =>
    rw [hu] at ha hkeys
    have hue : u.events = s.events := (ha.events_eq (by simp)).trans ht
    split
    next he =>
      obtain rfl := List.isEmpty_iff.mp he
      refine .inl ⟨hkeys.symm, ?_⟩
      rw [← hue]
      exact Tells.events_eq (.one rfl rfl)
    next hne =>
      extract_lets tracked v w pending round
      have hw : w.events = s.events := (Tells.events_eq (.one rfl rfl)).trans hue
      have hkey (x : ServerId) : x ∈ pending.keys ↔ x ∈ completing := by
        rw [Table.mem_keys_iff, ← Option.isSome_iff_exists]
        exact Table.contains_ofList.trans (hkeys ▸ Iff.rfl)
      refine .inr ⟨pending.keys, ?_, fun he => ?_, List.pairwise_map.mpr pending.ascending, hkey⟩
      · rw [emit_events, ← hw]
        rfl
      · have hp : pending.isEmpty = true := by
          rw [Table.isEmpty, List.map_eq_nil_iff.mp he]
          rfl
        have hq : pending.isEmpty = false :=
          Table.isEmpty_ofList fun he => hne (by rw [he]; rfl)
        cases hp.symm.trans hq

end Session

/-- A round is started. It is only logged if nobody is asked. -/
def Observation.starts : Observation → Bool
  | .event (.requested ..) => true
  | .log r => r.message == "No server accepted the completion request"
  | _ => false

namespace Session
open Observation

/-- How often a round was started. -/
def starts (s : Session) : Nat := s.trace.countP (·.starts)

theorem Adds.starts_le {kinds : List Kind} {s t : Session} (h : Adds kinds s t) :
    s.starts ≤ t.starts := by
  obtain ⟨obs, ht, _⟩ := h
  rw [starts, starts, ht, List.countP_append]
  exact Nat.le_add_right ..

theorem openRound_starts (s : Session) (trigger : Trigger) :
    s.starts < (s.openRound trigger).starts := by
  have one {u t : Session} {o : Observation} (ht : t.trace = u.trace ++ [o])
      (ho : o.starts = true) : u.starts < t.starts := by
    rw [starts, starts, ht, List.countP_append, List.countP_singleton, if_pos ho]
    exact Nat.lt_succ_self _
  unfold openRound
  extract_lets cursor id t
  have ha : Adds [.asking] t _ :=
    .askAll (.completion id) (fun s b => s.completionParams trigger b)
      (t.bindings.values.filter (·.completes)) t (by simp [kind, Purpose.method])
  split
  next u asked hu =>
    rw [hu] at ha
    have hsu : s.starts ≤ u.starts := ha.starts_le
    split
    · exact Nat.lt_of_le_of_lt hsu (one rfl (by simp [Observation.starts]))
    · extract_lets tracked v w pending round
      have hw : u.starts ≤ w.starts := Adds.starts_le (Adds.log v ..)
      exact Nat.lt_of_le_of_lt (Nat.le_trans hsu hw) (one rfl rfl)

/-- The published events keep to the protocol, and a round is opened for those servers that are asked
for it. The numbers of rounds do not wrap around. -/
structure Orderly (s : Session) : Prop where
  protocol : Protocol s.events
  asked : ∀ id trigger cursor servers, .requested id trigger cursor servers ∈ s.events →
    servers ≠ [] ∧ ∀ x, x ∈ servers ↔ (x, .completion id) ∈ s.sent
  bounded : ∀ x id, (x, .completion id) ∈ s.sent → id.toNat ≤ s.lastId.toNat

namespace Orderly

variable {s t : Session}

/-- All that is published is about rounds that were opened, and for these requests were sent. -/
theorem id_le (h : Orderly s) {e : Event} (he : e ∈ s.events) {id : RequestId}
    (hi : e.requestId? = some id) : id.toNat ≤ s.lastId.toNat := by
  obtain ⟨trigger, cursor, servers, hm⟩ := h.protocol.opened he hi
  obtain ⟨hne, hasked⟩ := h.asked id trigger cursor servers hm
  obtain ⟨x, hx⟩ := List.exists_mem_of_ne_nil servers hne
  exact h.bounded x id ((hasked x).mp hx)

theorem extend (h : Orderly s) (hc : Continues s.events t.events)
    (hs : SendsOther s t) (hl : t.lastId = s.lastId) : Orderly t := by
  refine ⟨hc.protocol, fun id trigger cursor servers hm => ?_, fun x id hm => ?_⟩
  · have hm := (hc.opened _ hm).resolve_left nofun
    obtain ⟨hne, hasked⟩ := h.asked id trigger cursor servers hm
    exact ⟨hne, fun x => (hasked x).trans hs.mem_sent.symm⟩
  · rw [hl]
    exact h.bounded x id (hs.mem_sent.mp hm)

theorem openRound (h : Orderly s) (trigger : Trigger)
    (hl : s.lastId.next.toNat = s.lastId.toNat + 1) : Orderly (s.openRound trigger) := by
  have hsent := s.openRound_sent trigger
  have hlast : (s.openRound trigger).lastId = s.lastId.next := by rw [openRound_frame]
  have hbounded (x : ServerId) (id : RequestId)
      (hm : (x, .completion id) ∈ (s.openRound trigger).sent) :
      id.toNat ≤ (s.openRound trigger).lastId.toNat := by
    rw [hlast, hl]
    rw [hsent] at hm
    rcases List.mem_append.mp hm with hm | hm
    · exact Nat.le_succ_of_le (h.bounded x id hm)
    · obtain ⟨b, _, hb⟩ := List.mem_map.mp hm
      obtain ⟨_, hp⟩ := Prod.mk.inj hb
      injection hp with hid
      rw [← hid, hl]
  -- Requests for a round are sent when it is opened only, since its number is a new one.
  have hold (x : ServerId) (id : RequestId) (hid : id.toNat ≤ s.lastId.toNat) :
      (x, .completion id) ∈ (s.openRound trigger).sent ↔ (x, .completion id) ∈ s.sent := by
    rw [hsent, List.mem_append, or_iff_left]
    intro hm
    obtain ⟨b, _, hb⟩ := List.mem_map.mp hm
    obtain ⟨_, hp⟩ := Prod.mk.inj hb
    injection hp with hp
    rw [← hp, hl] at hid
    exact Nat.not_succ_le_self _ hid
  have hnew (x : ServerId) : (x, .completion s.lastId.next) ∈ (s.openRound trigger).sent ↔
      x ∈ (s.bindings.values.filter (·.completes)).map (·.server) := by
    rw [hsent, List.mem_append, or_iff_right]
    · simp
    · intro hm
      have hle := h.bounded x _ hm
      rw [hl] at hle
      exact Nat.not_succ_le_self _ hle
  rcases s.openRound_events trigger with ⟨_, he⟩ | ⟨servers, he, hne, hasc, hmem⟩
  · refine ⟨he ▸ h.protocol, fun id trigger cursor servers hm => ?_, hbounded⟩
    rw [he] at hm
    obtain ⟨hne, hasked⟩ := h.asked id trigger cursor servers hm
    exact ⟨hne, fun x => (hasked x).trans (hold x id (h.id_le hm rfl)).symm⟩
  · refine ⟨?_, fun id trigger cursor others hm => ?_, hbounded⟩
    · rw [he]
      refine h.protocol.snoc ⟨fun e hm i hi => ?_, hne, hasc⟩
      rw [hl]
      exact Nat.lt_succ_of_le (h.id_le hm hi)
    · rw [he] at hm
      rcases List.mem_append.mp hm with hm | hm
      · obtain ⟨hne, hasked⟩ := h.asked id trigger cursor others hm
        exact ⟨hne, fun x => (hasked x).trans (hold x id (h.id_le hm rfl)).symm⟩
      · obtain ⟨rfl, _, _, rfl⟩ := Event.requested.inj (List.mem_singleton.mp hm)
        exact ⟨hne, fun x => (hmem x).trans (hnew x).symm⟩

end Orderly

/-- As long as rounds have not been started too often, the events are orderly. -/
structure Published (s : Session) : Prop where
  advancing : Advancing s
  counted : s.lastId.toNat ≤ s.starts
  orderly : s.starts < UInt64.size → Orderly s

theorem published_setup (setup : Setup) : Published setup.session where
  advancing := advancing_setup setup
  counted := Nat.zero_le _
  orderly _ := ⟨.nil, fun _ _ _ _ hm => absurd hm List.not_mem_nil,
    fun _ _ hm => absurd hm List.not_mem_nil⟩

theorem Published.extend {s t : Session} (h : Published s) (ht : Advancing t)
    (hle : s.starts ≤ t.starts) (hl : t.lastId = s.lastId)
    (hc : Protocol s.events → Continues s.events t.events)
    (hs : SendsOther s t) : Published t where
  advancing := ht
  counted := hl ▸ Nat.le_trans h.counted hle
  orderly hlt :=
    let ho := h.orderly (Nat.lt_of_le_of_lt hle hlt)
    ho.extend (hc ho.protocol) hs hl

theorem openRound_published {s : Session} (h : Published s) (trigger : Trigger)
    (ht : Advancing (s.openRound trigger)) : Published (s.openRound trigger) := by
  have hstarts := s.openRound_starts trigger
  refine ⟨ht, ?_, fun hlt => ?_⟩
  · rw [openRound_frame]
    change s.lastId.next.toNat ≤ _
    rw [RequestId.toNat_next]
    exact Nat.le_trans (Nat.mod_le ..) (Nat.lt_of_le_of_lt h.counted hstarts)
  · refine (h.orderly (Nat.lt_trans hstarts hlt)).openRound trigger ?_
    rw [RequestId.toNat_next]
    exact Nat.mod_eq_of_lt (Nat.lt_of_le_of_lt (Nat.lt_of_le_of_lt h.counted hstarts) hlt)

theorem Change.published {s t : Session} (hc : Change s t) (h : Published s) : Published t := by
  have ht := hc.advancing h.advancing
  rcases hc.round_step with ⟨reason, rfl⟩ | ⟨trigger, _, rfl⟩ | ⟨ha, hq, _, hi⟩
  · exact h.extend ht (Adds.giveUpRound s reason).starts_le (by rw [giveUpRound_frame])
      (fun hp => giveUpRound_continues h.advancing.round hp reason)
      (.of_eq (giveUpRound_sent s reason))
  · exact openRound_published h trigger ht
  · rcases hc.sends with ⟨trigger, _, rfl⟩ | hs
    · exact openRound_published h trigger ht
    · exact h.extend ht ha.starts_le hi (fun hp => hq.continues hp) hs

theorem TextChange.published {s t : Session} (hc : TextChange s t) (h : Published s) :
    Published t := by
  obtain ⟨ha, _, hi, _⟩ := hc.round_eq
  exact h.extend (hc.advancing h.advancing) ha.starts_le hi (fun hp => hc.tacit.continues hp) hc.sends

theorem RoundChange.published {s t : Session} (hc : RoundChange s t) (h : Published s) :
    Published t :=
  h.extend (hc.advancing h.advancing) hc.adds.starts_le hc.lastId_eq
    (fun hp => hc.continues h.advancing hp) (.of_eq hc.sent_eq)

theorem after_published (setup : Setup) (actions : List Action) :
    Published (setup.session.after actions) :=
  after_induction (fun _ _ hc h => hc.published h) (fun _ _ hc h => hc.published h)
    (fun _ _ hc h => hc.published h) (published_setup setup) actions

/-- In every run in which the numbers of rounds do not wrap around, rounds are opened in the order of
their numbers. Whatever else is published about one comes after it was opened and before it is over,
each failure once and of a server that was asked. Those are all servers to which requests for the round
were sent. -/
theorem publishedEvents_orderly (setup : Setup) (actions : List Action)
    (h : (setup.session.after actions).starts < UInt64.size) :
    let s := setup.session.after actions
    (s.events.filterMap Event.opens?).Pairwise (fun i j => i.toNat < j.toNat) ∧
    (∀ (before : List Event) (e : Event) (after : List Event) (id : RequestId),
      s.events = before ++ e :: after → e.requestId? = some id → e.opens? = none →
      (∃ trigger cursor servers, .requested id trigger cursor servers ∈ before) ∧
        (s.events.filterMap Event.opens?).count id = 1) ∧
    (∀ (before : List Event) (e : Event) (after : List Event) (id : RequestId),
      s.events = before ++ e :: after → e.ends? = some id → ∀ d ∈ after, d.requestId? ≠ some id) ∧
    (∀ (before after : List Event) (id : RequestId) (server : ServerId) (error : ResponseError),
      s.events = before ++ .requestFailed id server error :: after →
      (∃ trigger cursor servers, .requested id trigger cursor servers ∈ before ∧
        server ∈ servers) ∧
      (∀ other, .requestFailed id server other ∉ after) ∧ ∀ reason, .cancelled id reason ∉ after) ∧
    ∀ id trigger cursor servers, .requested id trigger cursor servers ∈ s.events →
      servers ≠ [] ∧ servers.Pairwise (· < ·) ∧
        ∀ x, x ∈ servers ↔ (x, .completion id) ∈ s.sent := by
  intro s
  have ho : Orderly s := (after_published setup actions).orderly h
  have hp := ho.protocol
  refine ⟨hp.opens_pairwise, ?_, ?_, ?_, ?_⟩
  · intro before e after id he hi hn
    obtain ⟨servers, hr⟩ := (hp.follows he).running hi hn
    obtain ⟨trigger, cursor, hm⟩ := hr.opened
    refine ⟨⟨trigger, cursor, servers, hm⟩, ?_⟩
    have hm : .requested id trigger cursor servers ∈ s.events := he ▸ List.mem_append_left _ hm
    exact List.count_eq_one_of_mem hp.opens_nodup (List.mem_filterMap.mpr ⟨_, hm, rfl⟩)
  · intro before e after id he hi
    exact hp.ended he hi
  · intro before after id server error he
    obtain ⟨⟨servers, hr, hserver⟩, _⟩ := hp.follows he
    obtain ⟨trigger, cursor, hm⟩ := hr.opened
    refine ⟨⟨trigger, cursor, servers, hm, hserver⟩, fun other hother => ?_, fun reason hc => ?_⟩
    · obtain ⟨past, hmem, hf⟩ := hp.follows_later he hother
      exact hf.2 error hmem
    · obtain ⟨past, hmem, hf⟩ := hp.follows_later he hc
      exact hf.2 server error hmem
  · intro id trigger cursor servers hm
    obtain ⟨hne, hasked⟩ := ho.asked id trigger cursor servers hm
    obtain ⟨before, after, he⟩ := List.append_of_mem hm
    exact ⟨hne, (hp.follows he).2.2, hasked⟩

/-- Two servers are asked twice. First one of them fails, and then both are detached. -/
def askedTwice : Setup × List Action :=
  ({ config := {}, uri := "file:///a", lines := [[]], cursor := ⟨0, 0⟩, missing := [],
     signatureView := false, snippets := [], matcher := ⟨fun _ _ => true⟩, commands := none,
     cancellable := true },
   [.attach ⟨1⟩ { completion := some {} } {}, .attach ⟨2⟩ { completion := some {} } {},
    .triggerCompletion, .respond (.number 0) (.error ⟨-1, "foo"⟩),
    .respond (.number 1) (.ok (.arr [.obj [("label", .str "foo")]])), .deliver 0, .deliver 0,
    .triggerCompletion, .detach ⟨1⟩, .detach ⟨2⟩])

/-- The results of the first round come after it was opened, and the rest is about the second. -/
theorem publishedEvents_orderly_askedTwice :
    let s := askedTwice.1.session.after askedTwice.2
    s.starts < UInt64.size ∧ ∃ before after, s.events = before ++ .resultsShown ⟨1⟩ 0 1 false 0 :: after ∧
      (∃ trigger cursor servers, .requested ⟨1⟩ trigger cursor servers ∈ before) ∧
      after.length = 2 ∧ ∀ d ∈ after, d.requestId? ≠ some ⟨1⟩ := by
  intro s
  have hstarts : s.starts < UInt64.size := by decide +kernel
  have hevents : s.events =
      [.requested ⟨1⟩ .manual ⟨0, 0⟩ [⟨1⟩, ⟨2⟩], .requestFailed ⟨1⟩ ⟨1⟩ ⟨-1, "foo"⟩] ++
        .resultsShown ⟨1⟩ 0 1 false 0 ::
        [.requested ⟨2⟩ .manual ⟨0, 0⟩ [⟨1⟩, ⟨2⟩], .cancelled ⟨2⟩ .detached] := by decide +kernel
  obtain ⟨_, hopened, hended, _⟩ := publishedEvents_orderly askedTwice.1 askedTwice.2 hstarts
  refine ⟨hstarts, _, _, hevents, (hopened _ _ _ ⟨1⟩ hevents rfl rfl).1, rfl, ?_⟩
  exact hended _ _ _ ⟨1⟩ hevents rfl

end Session
end Autocomplete

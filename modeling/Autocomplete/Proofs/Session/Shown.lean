import Autocomplete.Proofs.Fuzzy
import Autocomplete.Proofs.Session.History
import Mathlib.Data.List.Induction

/-! What the popup shows is the merge of the latest round, after every server that the round asked has
answered or was detached, and only while the user types on the line where the round started. -/
namespace Autocomplete
open MergeRequest

/-- Every entry comes from a server whose answer was merged. -/
theorem merge_entries_server (request : MergeRequest) (replies : ServerMap Reply)
    (bindings : ServerMap Binding) (matcher : Matcher) (m : Match)
    (hm : m ∈ (merge request replies bindings matcher).entries) :
    ∃ reply, replies.find? m.server = some reply := by
  rw [merge, Match.sorted, List.mem_mergeSort] at hm
  obtain ⟨⟨entry, question⟩, hcandidate, rfl⟩ :=
    List.mem_map.mp ((Matcher.sift_sublist _).subset hm)
  obtain ⟨answer, ha, hcandidate⟩ := List.mem_flatMap.mp hcandidate
  have hs : entry.server = answer.server := by
    obtain ⟨item, _, hitem⟩ := List.mem_map.mp hcandidate
    rw [← (Prod.mk.inj hitem).1]
    rfl
  obtain ⟨⟨server, reply⟩, hr, he⟩ := List.mem_filterMap.mp ha
  refine ⟨reply, ?_⟩
  rw [hs, Table.find?_eq_some_iff]
  cases reply with
  | ok value =>
    obtain rfl := Option.some.inj he
    exact hr
  | error e => cases he

namespace Session
open Observation

theorem Evolves.adds {s t : Session} (h : Evolves s t) :
    Adds [.plain, .text, .asking, .cancel, .opened, .givenUp] s t := by
  induction h with
  | refl => exact .of_eq rfl
  | tail _ hc ih =>
    rcases hc with hc | hc
    · exact ih.trans (hc.adds.mono (by simp))
    · exact ih.trans (hc.round_eq.1.mono (by simp))

/-- An observation that a step does not make was made before. -/
theorem Adds.told_before {kinds : List Kind} {s t : Session} (h : Adds kinds s t) {o : Observation}
    (hk : o.kind ∉ kinds) {old rest : List Observation} (ht : t.trace = old ++ o :: rest) :
    ∃ l, s.trace = old ++ o :: l := by
  obtain ⟨obs, hobs, ho⟩ := h
  rw [hobs] at ht
  rcases append_eq_append_cons ht with ⟨l, _, hl⟩ | hs
  · exact absurd (ho o (by rw [hl]; simp)) hk
  · exact hs

/-- What is not shown by a step was shown before. -/
theorem Adds.shown_before {kinds : List Kind} {s t : Session} (h : Adds kinds s t)
    (hk : Kind.shown ∉ kinds) {old rest : List Observation} {column : Nat} {entries : List Match}
    (ht : t.trace = old ++ .call (.present column entries) :: rest) :
    ∃ l, s.trace = old ++ .call (.present column entries) :: l :=
  h.told_before (o := .call (.present column entries)) hk ht

/-- The answer to a request has been in the queue at some time. -/
def Arrived (setup : Setup) (actions : List Action) (n : Nat) (server : ServerId)
    (reply : Reply) : Prop :=
  ∃ (earlier later : List Action) (place : Nat) (id : RequestId), actions = earlier ++ later ∧
    (setup.session.after earlier).queue[place]? = some (.reply n server (.completion id) reply)

theorem RoundChange.recorded_cases {s t : Session} (hc : RoundChange s t) (h : Coherent s) {n : Nat}
    {server : ServerId} {reply : Reply} (hm : .note (.recorded n server reply) ∈ t.trace) :
    .note (.recorded n server reply) ∈ s.trace ∨
      ∃ (place : Nat) (id : RequestId),
        s.queue[place]? = some (.reply n server (.completion id) reply) := by
  have before {kinds : List Kind} {u : Session} (ha : Adds kinds u t) (hk : Kind.recorded ∉ kinds) :
      .note (.recorded n server reply) ∈ u.trace := by
    obtain ⟨obs, hobs, ho⟩ := ha
    rw [hobs] at hm
    rcases List.mem_append.mp hm with hm | hm
    · exact hm
    · exact absurd (ho _ hm) hk
  cases hc with
  | attach => exact .inl (before (Adds.attach ..) (by simp))
  | detach x => exact .inl (before (Adds.detach s x) (by simp))
  | takeCompletion place k x id r hq hl =>
    obtain ⟨c, hround, rfl, hn⟩ := h.pending_of_live hq hl
    have hround' : ({ s with queue := s.queue.eraseIdx place } : Session).round = some c := hround
    rw [takeCompletion_eq r hround' hn] at before
    have hu : .note (.recorded n server reply) ∈ s.trace ++ [.note (.recorded k x r)] := by
      dsimp only at before
      split at before
      · exact before (Adds.finishRound _ _) (by simp)
      · have ha {u : Session} : Adds [] u u := .of_eq rfl
        exact before ha (by simp)
    rcases List.mem_append.mp hu with hu | hu
    · exact .inl hu
    · obtain ⟨rfl, rfl, rfl⟩ : n = k ∧ server = x ∧ reply = r := by simpa using hu
      exact .inr ⟨place, c.id, hq⟩

theorem recorded_arrived (setup : Setup) (actions : List Action) (n : Nat) (server : ServerId)
    (reply : Reply) (hm : .note (.recorded n server reply) ∈ (setup.session.after actions).trace) :
    Arrived setup actions n server reply := by
  induction actions using List.reverseRecOn with
  | nil => simp [after, Setup.session, log] at hm
  | append_singleton actions a ih =>
    have later (h : .note (.recorded n server reply) ∈ (setup.session.after actions).trace) :
        Arrived setup (actions ++ [a]) n server reply := by
      obtain ⟨earlier, rest, place, id, rfl, hq⟩ := ih h
      exact ⟨earlier, rest ++ [a], place, id, List.append_assoc .., hq⟩
    rw [after_concat] at hm
    rcases act_cases (setup.session.after actions) a with h | h
    · obtain ⟨obs, hobs, ho⟩ := Evolves.adds h
      rw [hobs] at hm
      rcases List.mem_append.mp hm with hm | hm
      · exact later hm
      · exact absurd (ho _ hm) (by simp [kind])
    · rcases h.recorded_cases (after_coherent setup actions) hm with hm | ⟨place, id, hq⟩
      · exact later hm
      · exact ⟨actions, [a], place, id, rfl, hq⟩

theorem present_shown {s : Session} {c : Round} {merged : Merged} {roundTrip : Duration}
    {old rest : List Observation} {column : Nat} {entries : List Match}
    (h : (s.present c merged roundTrip).trace = old ++ .call (.present column entries) :: rest) :
    (∃ l, s.trace = old ++ .call (.present column entries) :: l) ∨
      (∃ obs, old = s.trace ++ obs ∧ ∀ o ∈ obs, o.kind = .plain) ∧
        column = merged.startColumn ∧ entries = merged.entries := by
  have ht : ∃ record e, (s.present c merged roundTrip).trace = s.trace ++ ([.log record] ++
      .call (.present merged.startColumn merged.entries) :: [.event e]) :=
    ⟨_, _, by simp [present, log, call, emit]; exact ⟨rfl, rfl⟩⟩
  obtain ⟨record, e, ht⟩ := ht
  rw [ht] at h
  rcases append_eq_append_cons h with ⟨l, rfl, hl⟩ | hs
  · have he := (List.append_cons_inj_of_notMem (by simp) (by simp)).mp hl
    obtain ⟨rfl, hp, _⟩ := he
    obtain ⟨rfl, rfl⟩ : merged.startColumn = column ∧ merged.entries = entries := by simpa using hp
    exact .inr ⟨⟨_, rfl, by simp [kind]⟩, rfl, rfl⟩
  · exact .inl hs

theorem finishRound_shown {s : Session} {c : Round} {old rest : List Observation} {column : Nat}
    {entries : List Match}
    (h : (s.finishRound c).trace = old ++ .call (.present column entries) :: rest) :
    (∃ l, s.trace = old ++ .call (.present column entries) :: l) ∨
      (∃ obs, old = s.trace ++ obs ∧ ∀ o ∈ obs, o.kind = .plain) ∧
        s.buffer.inserting = true ∧ s.buffer.cursor.line = c.cursor.line ∧
        column = (s.mergeRound c).startColumn ∧ entries = (s.mergeRound c).entries := by
  unfold finishRound at h
  extract_lets t about merged roundTrip u v w x at h
  split at h
  · exact .inl (Adds.shown_before (Adds.log ..) (by simp) h)
  next hi =>
    split at h
    · exact .inl (Adds.shown_before (Adds.log ..) (by simp) h)
    next hline =>
      have hx : Adds [.plain] t x :=
        (Adds.logAll t (mergeDiagnostics c.replies merged)).trans (Adds.reportFailures c.id _ v)
      split at h
      · exact .inl (Adds.shown_before (hx.trans (Adds.log ..)) (by simp) h)
      · rcases present_shown h with ⟨l, hl⟩ | ⟨⟨obs, rfl, ho⟩, hcolumn, hentries⟩
        · exact .inl (Adds.shown_before hx (by simp) hl)
        · obtain ⟨more, hmore, hm⟩ := hx
          refine .inr ⟨⟨more ++ obs, by rw [hmore, List.append_assoc], fun o hin => ?_⟩,
            by simpa using hi, by simpa using hline, hcolumn, hentries⟩
          rcases List.mem_append.mp hin with hin | hin
          · simpa using hm o hin
          · exact ho o hin

/-- Why a list may be shown, given the trace before it, the session that shows it and the matcher that it
had before: it is the merge of the round that was opened last, which was not given up and has shown
nothing yet. -/
structure Justified (s : Session) (matcher : Matcher) (old : List Observation) (column : Nat)
    (entries : List Match) (c : Round) (servers : List ServerId) (before since : List Observation) :
    Prop where
  opened : old = before ++ .event (.requested c.id c.trigger c.cursor servers) :: since
  undisturbed : ∀ o ∈ since, o.kind ∉ [Kind.asking, .opened, .givenUp, .shown]
  latest : s.lastId = c.id
  complete : ∀ server ∈ servers, ∃ n, SentLast before server n ∧
    ((∃ reply, .note (.recorded n server reply) ∈ since) ∨ .note (.detached server) ∈ since)
  merged : column = ({ s with matcher }.mergeRound c).startColumn ∧
    entries = ({ s with matcher }.mergeRound c).entries
  replies : ∀ server reply, c.replies.find? server = some reply ↔
    ∃ n, SentLast before server n ∧ Kept (since.filterMap note?) n server reply
  sources : ∀ m ∈ entries, ∃ n reply, SentLast before m.server n ∧
    Kept (since.filterMap note?) n m.server reply
  inserting : s.buffer.inserting = true
  line : s.buffer.cursor.line = c.cursor.line

theorem mem_notes {since : List Observation} {x : Note} :
    x ∈ since.filterMap note? ↔ .note x ∈ since := by
  constructor
  · intro hm
    obtain ⟨o, ho, hx⟩ := List.mem_filterMap.mp hm
    cases o with
    | note y =>
      obtain rfl := Option.some.inj hx
      exact ho
    | _ => cases hx
  · exact fun hm => List.mem_filterMap.mpr ⟨_, hm, rfl⟩

/-- A finished round shows what its story justifies. -/
theorem Story.justified {s : Session} {c : Round} {servers : List ServerId}
    {before since : List Observation} {notes : List Note}
    (h : Story s c servers before since notes) (he : c.pending.isEmpty = true)
    {obs : List Observation} (ho : ∀ o ∈ obs, o.kind = .plain)
    (hi : s.buffer.inserting = true) (hl : s.buffer.cursor.line = c.cursor.line) :
    Justified (s.finishRound c) s.matcher (s.trace ++ obs) (s.mergeRound c).startColumn
      (s.mergeRound c).entries c servers before (since ++ obs) := by
  have hf := s.finishRound_frame c
  have hmerge : { s.finishRound c with matcher := s.matcher }.mergeRound c = s.mergeRound c := by
    rw [hf]
    rfl
  have hn : obs.filterMap note? = [] := by
    refine List.filterMap_eq_nil_iff.mpr fun o hm => ?_
    cases o with
    | note n => exact absurd (ho _ hm) (by cases n <;> simp [kind])
    | _ => rfl
  have hnotes : (since ++ obs).filterMap note? = notes := by
    rw [List.filterMap_append, hn, List.append_nil, h.noted]
  refine ⟨?_, fun o hm => ?_, ?_, fun x hx => ?_, ?_, ?_, fun m hm => ?_, ?_, ?_⟩
  · rw [h.trace, List.append_assoc, List.cons_append]
  · rcases List.mem_append.mp hm with hm | hm
    · have hk := h.quiet o hm
      simp only [List.mem_cons, List.not_mem_nil, or_false] at hk ⊢
      rcases hk with hk | hk | hk | hk | hk <;> simp [hk]
    · simp [ho o hm]
  · rw [hf]
    exact h.latest
  · obtain ⟨n, hsent, hc⟩ := h.asked x hx
    refine ⟨n, hsent, ?_⟩
    rcases hc with hc | ⟨reply, hr⟩ | hd
    · rw [(Table.isEmpty_iff _).mp he x] at hc
      cases hc
    · exact .inl ⟨reply, mem_notes.mp (hnotes ▸ hr)⟩
    · exact .inr (mem_notes.mp (hnotes ▸ hd))
  · rw [hmerge]
    exact ⟨rfl, rfl⟩
  · rw [hnotes]
    exact h.replies
  · obtain ⟨reply, hr⟩ := merge_entries_server _ _ _ _ m hm
    obtain ⟨n, hsent, hkept⟩ := (h.replies m.server reply).mp hr
    exact ⟨n, reply, hsent, hnotes.symm ▸ hkept⟩
  · rw [hf]
    exact hi
  · rw [hf]
    exact hl

/-- Since anything else was shown, the round was opened. -/
theorem Justified.once {s : Session} {matcher : Matcher} {old : List Observation} {column : Nat}
    {entries : List Match} {c : Round} {servers : List ServerId}
    {before since earlier later : List Observation}
    {otherColumn : Nat} {others : List Match}
    (h : Justified s matcher old column entries c servers before since)
    (ho : old = earlier ++ .call (.present otherColumn others) :: later) :
    .event (.requested c.id c.trigger c.cursor servers) ∈ later := by
  have hnot {l : List Observation} (hl : l ⊆ since) : .call (.present otherColumn others) ∉ l :=
    fun hm => h.undisturbed _ (hl hm) (by simp [kind])
  have hs := h.opened.symm.trans ho
  rcases append_eq_append_cons hs with ⟨l, _, hl⟩ | ⟨l, rfl⟩
  · cases l with
    | nil => cases hl
    | cons o l =>
      obtain ⟨_, hl⟩ := List.cons.inj hl
      exact absurd (by rw [hl]; simp) (hnot fun _ hm => hm)
  · rw [List.append_assoc, List.cons_append] at hs
    obtain ⟨_, hl⟩ := List.cons.inj (List.append_cancel_left hs)
    rw [← hl]
    simp

theorem act_shown {s : Session} (h : Historic s) (a : Action) {old rest : List Observation}
    {column : Nat} {entries : List Match}
    (ht : (s.act a).trace = old ++ .call (.present column entries) :: rest) :
    (∃ l, s.trace = old ++ .call (.present column entries) :: l) ∨
      s.trace <+: old ∧
        ∃ c servers before since,
          Justified (s.act a) s.matcher old column entries c servers before since := by
  rcases act_cases s a with hc | hc
  · exact .inl (Adds.shown_before (Evolves.adds hc) (by simp) ht)
  · rcases hc.story_cases h with
      ⟨ha, _⟩ | ⟨u, c, servers, before, since, notes, hu, he, hs, hmatcher, ha⟩
    · exact .inl (Adds.shown_before ha (by simp) ht)
    · rw [hu] at ht
      rw [hu, ← hmatcher]
      rcases finishRound_shown ht with ⟨l, hl⟩ | ⟨⟨obs, rfl, ho⟩, hi, hl, rfl, rfl⟩
      · exact .inl (Adds.shown_before ha (by simp) hl)
      · obtain ⟨more, hmore, _⟩ := ha
        refine .inr ⟨⟨more ++ obs, by rw [hmore, List.append_assoc]⟩, c, servers, before,
          since ++ obs, hs.justified he ho hi hl⟩

/-- In every run, whatever is shown is justified at the action that shows it, each recorded answer
that led to it is the one that arrived to that request, and nothing was shown for the same round
before. -/
theorem shownResults_justified (setup : Setup) (actions : List Action)
    (old rest : List Observation) (column : Nat) (entries : List Match)
    (h : (setup.session.after actions).trace = old ++ .call (.present column entries) :: rest) :
    ∃ past a future c servers before since, actions = past ++ a :: future ∧
      (setup.session.after past).trace <+: old ∧
      old ++ [.call (.present column entries)] <+: (setup.session.after (past ++ [a])).trace ∧
      Justified (setup.session.after (past ++ [a])) (setup.session.after past).matcher old column entries
        c servers before since ∧
      (∀ n server reply, .note (.recorded n server reply) ∈ since →
        Arrived setup (past ++ [a]) n server reply) ∧
      ∀ earlier later otherColumn others,
        old = earlier ++ .call (.present otherColumn others) :: later →
          .event (.requested c.id c.trigger c.cursor servers) ∈ later := by
  induction actions using List.reverseRecOn generalizing rest with
  | nil =>
    have hm : .call (.present column entries) ∈ setup.session.trace := by
      change setup.session.trace = _ at h
      rw [h]
      simp
    simp [Setup.session, log] at hm
  | append_singleton actions a ih =>
    have hact := h
    rw [after_concat] at hact
    rcases act_shown (after_historic setup actions) a hact with ⟨l, hl⟩ |
      ⟨hpast, c, servers, before, since, hj⟩
    · obtain ⟨past, b, future, c, servers, before, since, rfl, hrest⟩ := ih l hl
      exact ⟨past, b, future ++ [a], c, servers, before, since, by simp, hrest⟩
    · refine ⟨actions, a, [], c, servers, before, since, rfl, hpast, ⟨rest, by rw [h]; simp⟩,
        by rw [after_concat]; exact hj, fun n server reply hm => ?_, fun _ _ _ _ he => hj.once he⟩
      refine recorded_arrived setup _ n server reply ?_
      rw [h, hj.opened]
      simp [hm]

theorem exists_of_kind_shown {o : Observation} (h : o.kind = .shown) :
    ∃ column entries, o = .call (.present column entries) := by
  cases o with
  | call call =>
    cases call with
    | present column entries => exact ⟨column, entries, rfl⟩
    | request n server method params => cases method <;> simp [kind] at h
    | _ => simp [kind] at h
  | edit cause => cases cause <;> simp [kind] at h
  | event e => cases e <;> simp [kind] at h
  | note n => cases n <;> simp [kind] at h
  | log r => simp [kind] at h

/-- An empty document and one server, which is asked and answers with one item. -/
def oneAnswer : Setup × List Action :=
  ({ config := {}, uri := "file:///a", lines := [[]], cursor := ⟨0, 0⟩, missing := [],
     signatureView := false, snippets := [], matcher := ⟨fun _ _ => true⟩, commands := none,
     cancellable := true },
   [.perform ⟨.attach ⟨1⟩ { completion := some {} } {}, rfl⟩, .perform ⟨.triggerCompletion, rfl⟩,
    .perform ⟨.respond (.number 0) (.ok (.arr [.obj [("label", .str "foo")]])), rfl⟩,
    .deliver 0])

theorem shownResults_justified_oneAnswer :
    ∃ old column entries rest, (oneAnswer.1.session.after oneAnswer.2).trace =
        old ++ .call (.present column entries) :: rest ∧
      ∃ past a future c servers before since, oneAnswer.2 = past ++ a :: future ∧
        Justified (oneAnswer.1.session.after (past ++ [a])) (oneAnswer.1.session.after past).matcher
          old column entries c servers before since := by
  have hshown : (oneAnswer.1.session.after oneAnswer.2).trace.any (·.kind == .shown) = true := by
    decide +kernel
  obtain ⟨o, hm, ho⟩ := List.any_eq_true.mp hshown
  obtain ⟨column, entries, rfl⟩ := exists_of_kind_shown (beq_iff_eq.mp ho)
  obtain ⟨old, rest, h⟩ := List.append_of_mem hm
  obtain ⟨past, a, future, c, servers, before, since, hp, _, _, hj, _⟩ :=
    shownResults_justified oneAnswer.1 oneAnswer.2 old rest column entries h
  exact ⟨old, column, entries, rest, h, past, a, future, c, servers, before, since, hp, hj⟩

end Session
end Autocomplete

import Autocomplete.Proofs.Session.Events
import Autocomplete.Proofs.Session.Positions
import Autocomplete.Proofs.Session.StartColumn

/-! In which encoding the answers of servers are read when they are merged. It is the one that was agreed
on when the server was attached last. A request counts in the encoding of its own time, so that the two
differ only if the server is attached again while it is asked. -/
namespace Autocomplete
open Text MergeRequest

/-- How a server counts after an action, given how it counted before: to attach it is to agree on an
encoding. -/
def Action.agreed (server : ServerId) (e : Encoding) : Action → Encoding
  | .perform ⟨.attach x capabilities _, _⟩ =>
    if x = server then .negotiated capabilities.positionEncoding else e
  | _ => e

theorem Action.agreed_of_not_attaches {server : ServerId} {a : Action}
    (h : a.attaches server = false) (e : Encoding) : a.agreed server e = e := by
  unfold agreed
  split
  · exact if_neg (by simpa [attaches] using h)
  · rfl

namespace Session
open Observation

/-- If a server is attached, this is how it counts. -/
def CountsIn (s : Session) (server : ServerId) (e : Encoding) : Prop :=
  ∀ b, s.bindings.find? server = some b → b.encoding = e

theorem Change.countsIn {s t : Session} (hc : Change s t) {server : ServerId} {e : Encoding}
    (h : s.CountsIn server e) : t.CountsIn server e := by
  unfold CountsIn at h ⊢
  rcases hc.bindings_cases with he | ⟨x, b, commands, hb, he⟩
  · rwa [he]
  · rw [he]
    intro d hd
    rw [Table.find?_insert] at hd
    split at hd
    next hx =>
      cases hd
      exact h b (hx ▸ hb)
    next => exact h d hd

theorem Evolves.countsIn {s t : Session} (h : Evolves s t) {server : ServerId} {e : Encoding}
    (hs : s.CountsIn server e) : t.CountsIn server e := by
  refine Evolves.keeps (fun _ _ hc h => hc.countsIn h) (fun _ _ hc h => ?_) h hs
  unfold CountsIn
  rw [hc.bindings_eq]
  exact h

/-- What an action has to do with servers and with the round that is under way. -/
inductive Bearing (s : Session) : Action → Prop where
  | attach (server : ServerId) (capabilities : Capabilities) (options : AttachOptions) :
      Bearing s (.attach server capabilities options)
  | detach (server : ServerId) : Bearing s (.detach server)
  | answer {place n : Nat} {server : ServerId} {id : RequestId} {reply : Reply}
      (hm : s.queue[place]? = some (.reply n server (.completion id) reply))
      (live : s.isLive (.reply n server (.completion id) reply) = true)
      (hd : s.deliver place =
        ({ s with queue := s.queue.eraseIdx place } : Session).takeCompletion id server reply) :
      Bearing s (.deliver place)
  | none {a : Action} (h : Evolves s (s.act a)) (ha : ∀ server, a.attaches server = false) :
      Bearing s a

theorem act_bearing (s : Session) (a : Action) : Bearing s a := by
  cases a with
  | perform o =>
    obtain ⟨o, hd⟩ := o
    cases o with
    | attach server capabilities options => exact .attach server capabilities options
    | detach server => exact .detach server
    | completeDone selection => exact .none (completeDone_evolves s _) fun _ => rfl
    | _ =>
      rcases perform_cases s ⟨_, hd⟩ with hq | ⟨_, _, _, ho⟩ | ⟨_, ho⟩ | ⟨_, ho⟩
      · exact .none (Quiet.evolves hq) fun _ => rfl
      all_goals cases ho
  | deliver place =>
    rcases deliver_cases s place with hq | ⟨_, _, _, _, hm, live, hd⟩ | ⟨_, _, _, hm, live, hd⟩
    · exact .none (Quiet.evolves hq) fun _ => rfl
    · exact .answer hm live hd
    · exact .none (by rw [act, hd]; exact takeResolved_evolves hm live) fun _ => rfl

theorem act_countsIn {s : Session} {server : ServerId} {e : Encoding} (h : s.CountsIn server e)
    (a : Action) : (s.act a).CountsIn server (a.agreed server e) := by
  cases s.act_bearing a with
  | attach x capabilities options =>
    change (s.attach x capabilities options).CountsIn server (if x = server then _ else e)
    rw [attach_frame]
    intro b hb
    rw [Table.find?_insert] at hb
    split at hb
    next hx =>
      cases hb
      rw [if_pos hx]
      rfl
    next hx =>
      rw [if_neg hx]
      exact h b hb
  | detach x =>
    change (s.detach x).CountsIn server e
    unfold detach
    split
    · intro b hb
      rw [detachFromRound_frame, detachFromSignature_frame] at hb
      exact h b (Table.find?_of_erase hb)
    · exact h
  | @answer place _ _ _ _ _ _ hd =>
    change (s.deliver place).CountsIn server e
    rw [hd, takeCompletion_frame]
    exact h
  | none he ha =>
    rw [a.agreed_of_not_attaches (ha server)]
    exact Evolves.countsIn he h

theorem after_countsIn {s : Session} {server : ServerId} {e : Encoding} (h : s.CountsIn server e)
    (actions : List Action) :
    (s.after actions).CountsIn server (actions.foldl (fun e a => a.agreed server e) e) := by
  induction actions generalizing s e with
  | nil => exact h
  | cons a actions ih => exact ih (act_countsIn h a)

theorem foldl_agreed {server : ServerId} {actions : List Action}
    (h : ∀ a ∈ actions, a.attaches server = false) (e : Encoding) :
    actions.foldl (fun e a => a.agreed server e) e = e := by
  induction actions with
  | nil => rfl
  | cons a actions ih =>
    obtain ⟨ha, hrest⟩ := List.forall_mem_cons.mp h
    rw [List.foldl_cons, a.agreed_of_not_attaches ha]
    exact ih hrest

/-- Each request for completions was followed by the event that opened its round. -/
def Announced (s : Session) : Prop := ∀ server n, ¬ SentLast s.trace server n

theorem Announced.extend {s t : Session} (h : Announced s) {kinds : List Kind} (ha : Adds kinds s t)
    (hk : Kind.asking ∉ kinds) : Announced t := by
  rintro server n ⟨old, sent, params, htrace, hsent⟩
  obtain ⟨l, hl⟩ := ha.told_before (by simpa [kind] using hk) htrace
  obtain ⟨obs, hobs, -⟩ := ha
  rw [hl, List.append_assoc, List.cons_append] at hobs
  obtain ⟨-, rfl⟩ := List.cons.inj (List.append_cancel_left (htrace.symm.trans hobs))
  exact h server n ⟨old, l, params, hl, fun o ho => hsent o (List.mem_append_left _ ho)⟩

theorem openRound_announced {s : Session} (h : Announced s) (trigger : Trigger) :
    Announced (s.openRound trigger) := by
  unfold openRound
  extract_lets cursor id t
  have hservers := askAll_servers (.completion id) (fun s b => s.completionParams trigger b)
    (t.bindings.values.filter (·.completes)) t
  split
  next u asked hu =>
    rw [hu] at hservers
    split
    next hnone =>
      -- Nobody was asked.
      obtain rfl := List.isEmpty_iff.mp hnone
      have hbs := List.map_eq_nil_iff.mp hservers.symm
      rw [hbs] at hu
      obtain ⟨rfl, -⟩ := Prod.mk.inj hu
      exact Announced.extend (s := s) h (Adds.log t ..) (by simp)
    next =>
      extract_lets tracked v w pending round
      rintro server n ⟨old, sent, params, htrace, hsent⟩
      change w.trace ++ [.event (.requested id trigger cursor pending.keys)] = _ at htrace
      rcases append_eq_append_cons htrace with ⟨l, -, hl⟩ | ⟨l, hl⟩
      · have hm : .call (.request n server .completion params) ∈
            [Observation.event (.requested id trigger cursor pending.keys)] := by
          rw [hl]
          simp
        simp at hm
      · rw [hl, List.append_assoc, List.cons_append] at htrace
        obtain ⟨-, rfl⟩ := List.cons.inj (List.append_cancel_left htrace)
        exact hsent _ (List.mem_append_right _ List.mem_cons_self) rfl

theorem Change.announced {s t : Session} (hc : Change s t) (h : Announced s) : Announced t := by
  rcases hc.round_cases with ⟨reason, rfl⟩ | ⟨trigger, _, rfl⟩ | ⟨ha, _, _⟩
  · exact h.extend (Adds.giveUpRound s reason) (by simp)
  · exact openRound_announced h trigger
  · exact h.extend ha (by simp)

theorem TextChange.announced {s t : Session} (hc : TextChange s t) (h : Announced s) : Announced t :=
  h.extend hc.round_eq.1 (by simp)

theorem after_announced (setup : Setup) (actions : List Action) :
    Announced (setup.session.after actions) := by
  refine after_induction (fun _ _ hc h => hc.announced h) (fun _ _ hc h => hc.announced h)
    (fun _ _ hc h => h.extend hc.adds (by simp)) ?_ actions
  rintro server n ⟨old, sent, params, htrace, -⟩
  have hm : .call (.request n server .completion params) ∈ setup.session.trace := by
    rw [htrace]
    simp
  simp [Setup.session, log] at hm

theorem TextChange.rewrites {s t : Session} (hc : TextChange s t) : Rewrites s t := by
  cases hc with
  | supersedeResolve => exact (Follows.supersedeResolve s).rewrites
  | removeInsertedWord => exact .edit ..
  | sendResolve payload expansion =>
    refine .still ?_ (by rw [sendResolve_buffer])
    have hs : Unedited s (s.send payload.server .resolve payload.item.encode).1 :=
      .one (by rw [send_frame]) rfl
    exact hs.trans (.one rfl rfl)
  | takeUp => exact .still (.of_eq rfl) rfl
  | conclude => exact .still (.one rfl rfl) rfl
  | expand e => exact (Follows.expand s e).rewrites

theorem Evolves.rewrites {s t : Session} (h : Evolves s t) : Rewrites s t := by
  induction h with
  | refl => exact .still (.of_eq rfl) rfl
  | tail _ hc ih =>
    rcases hc with hc | hc
    · exact ih.trans hc.rewrites
    · exact ih.trans hc.rewrites

theorem openRound_told (s : Session) (trigger : Trigger) :
    ∃ news, (s.openRound trigger).trace = s.trace ++ news ∧ s.AsksAtCursor news ∧
      (∀ o ∈ news, o.isEdit = false) ∧
      ∀ id told cursor servers, .event (.requested id told cursor servers) ∈ news →
        s.buffer.cursor = cursor := by
  obtain ⟨news, hnews, hasks⟩ := s.openRound_asksAtCursor trigger
  obtain ⟨more, hmore, hedits⟩ := (Tells.openRound s trigger).unedited
  obtain rfl := List.append_cancel_left (hnews.symm.trans hmore)
  refine ⟨news, hnews, hasks, hedits, fun id told cursor servers hm => ?_⟩
  have hevent : .requested id told cursor servers ∈ news.filterMap event? :=
    List.mem_filterMap.mpr ⟨_, hm, rfl⟩
  have hevents : (s.openRound trigger).events = s.events ++ news.filterMap event? := by
    rw [events, hnews, List.filterMap_append, events]
  rcases s.openRound_events trigger with ⟨-, hsame⟩ | ⟨asked, hone, -⟩
  · rw [hsame] at hevents
    rw [List.self_eq_append_right.mp hevents] at hevent
    cases hevent
  · rw [hone] at hevents
    rw [← List.append_cancel_left hevents, List.mem_singleton] at hevent
    cases hevent
    rfl

section
variable {before since : List Observation} {id : RequestId} {trigger : Trigger} {cursor : Cursor}
  {servers : List ServerId}

/-- When a round was opened, its servers had been asked just before. -/
theorem Evolves.opening {s t : Session} (h : Evolves s t) (hs : Announced s)
    (ht : t.trace = before ++ .event (.requested id trigger cursor servers) :: since) :
    (∃ l, s.trace = before ++ .event (.requested id trigger cursor servers) :: l) ∨
      ∃ v obs, Evolves s v ∧ Announced v ∧ before = v.trace ++ obs ∧ v.AsksAtCursor obs ∧
        (∀ o ∈ obs, o.isEdit = false) ∧ v.buffer.cursor = cursor := by
  induction h generalizing since with
  | refl => exact .inl ⟨since, ht⟩
  | @tail u _ hu hc ih =>
    have earlier {kinds : List Kind} (ha : Adds kinds u _) (hk : Kind.opened ∉ kinds) :=
      (ha.told_before (by simpa [kind] using hk) ht).elim fun l hl => ih hl
    rcases hc with hc | hc
    · rcases hc.round_cases with ⟨reason, rfl⟩ | ⟨_, _, rfl⟩ | ⟨ha, _, _⟩
      · exact earlier (Adds.giveUpRound u reason) (by simp)
      · obtain ⟨news, hnews, hasks, hedits, hcursor⟩ := u.openRound_told _
        rw [hnews] at ht
        rcases append_eq_append_cons ht with ⟨obs, rfl, rfl⟩ | ⟨l, hl⟩
        · have hannounced := Evolves.keeps (fun _ _ hc h => hc.announced h)
            (fun _ _ hc h => hc.announced h) hu hs
          refine .inr ⟨u, obs, hu, hannounced, rfl, fun n server params hm => ?_, fun o ho => ?_,
            hcursor id trigger cursor servers (by simp)⟩
          · exact hasks n server params (List.mem_append_left _ hm)
          · exact hedits o (List.mem_append_left _ ho)
        · exact ih hl
      · exact earlier ha (by simp)
    · exact earlier hc.round_eq.1 (by simp)

end

/-- An action of a run sends a request for completions. `old` was told before, and `e` is how the server
counts, which the position in the request is given in. -/
structure SentBy (setup : Setup) (past : List Action) (a : Action) (n : Nat) (server : ServerId)
    (cursor : Cursor) (old : List Observation) (params : Json) (e : Encoding) : Prop where
  told : (setup.session.after past).trace <+: old ∧
    old ++ [.call (.request n server .completion params)] <+:
      (setup.session.after (past ++ [a])).trace
  attached : ∃ b, (setup.session.after past).bindings.find? server = some b ∧ b.encoding = e
  position : params.field? "position" = some (Position.ofCursor e
    ((setup.session.buffer.replay old).line cursor.line) cursor).encode

/-- The text is always what the edits told so far have made of it. -/
theorem currentLine_of_evolves {setup : Setup} {actions : List Action} {v : Session}
    (h : Evolves (setup.session.after actions) v) {obs : List Observation}
    (ho : ∀ o ∈ obs, o.isEdit = false) :
    (setup.session.buffer.replay (v.trace ++ obs)).line v.buffer.cursor.line =
      v.buffer.currentLine := by
  obtain ⟨told, htold, hbuffer⟩ := (after_rewrites setup.session actions).trans h.rewrites
  have hlines : v.buffer.lines = (setup.session.buffer.replay (v.trace ++ obs)).lines := by
    rw [Buffer.replay_append, Buffer.replay_eq_self _ ho, htold, Buffer.replay_append,
      Buffer.replay_eq_self _ (Setup.trace_not_edit setup), hbuffer]
  simp only [Buffer.currentLine, Buffer.line, Buffer.line?, hlines]

/-- Whoever is attached after some changes was attached before, and counted in the same way. -/
theorem Evolves.find?_bindings {s t : Session} (h : Evolves s t) (hs : Coherent s) {b : Binding}
    (hb : b ∈ t.bindings.values) :
    ∃ d, s.bindings.find? b.server = some d ∧ d.encoding = b.encoding := by
  have ht : Coherent t := Evolves.keeps (fun _ _ hc h => hc.coherent h)
    (fun _ _ hc h => hc.coherent h) h hs
  obtain ⟨x, hx⟩ := (Table.mem_values_iff _ _).mp hb
  obtain rfl := ht.bindings x b hx
  obtain ⟨d, hd⟩ := Option.isSome_iff_exists.mp
    (Evolves.contains_bindings h (Option.isSome_of_eq_some hx))
  have hcounts : s.CountsIn b.server d.encoding := fun e he => by
    rw [Option.some.inj (he.symm.trans hd)]
  exact ⟨d, hd, (Evolves.countsIn h hcounts b hx).symm⟩

/-- The requests of a round that an action opens are sent by it, in the state `v` in between. -/
theorem Evolves.sentBy {setup : Setup} {actions : List Action} {a : Action} {v : Session}
    (hv : Evolves (setup.session.after actions) v) (hannounced : Announced v)
    {obs : List Observation} (hasks : v.AsksAtCursor obs) (hedits : ∀ o ∈ obs, o.isEdit = false)
    (hobs : v.trace ++ obs <+: (setup.session.after (actions ++ [a])).trace) {server : ServerId}
    {n : Nat} (hsent : SentLast (v.trace ++ obs) server n) :
    ∃ old sent params e, v.trace ++ obs = old ++ .call (.request n server .completion params) :: sent ∧
      SentBy setup actions a n server v.buffer.cursor old params e := by
  obtain ⟨old, sent, params, hold, hopened⟩ := hsent
  rcases append_eq_append_cons hold with ⟨more, rfl, rfl⟩ | ⟨l, hl⟩
  · obtain ⟨news, hnews, -⟩ := Evolves.adds hv
    obtain ⟨b, hb, rfl, hposition⟩ := hasks n server params (by simp)
    obtain ⟨d, hd, he⟩ := Evolves.find?_bindings hv (after_coherent setup actions) hb
    refine ⟨v.trace ++ more, sent, params, b.encoding, hold, ⟨?_, ?_⟩, ⟨d, hd, he⟩, ?_⟩
    · rw [hnews, List.append_assoc]
      exact List.prefix_append ..
    · refine List.IsPrefix.trans ⟨sent, ?_⟩ hobs
      rw [hold, List.append_assoc, List.singleton_append]
    · rw [currentLine_of_evolves hv fun o ho => hedits o (List.mem_append_left _ ho)]
      exact hposition
  · -- The request would have been sent before, without a round.
    rw [hl, List.append_assoc, List.cons_append] at hold
    obtain ⟨-, rfl⟩ := List.cons.inj (List.append_cancel_left hold)
    exact absurd ⟨old, l, params, hl, fun o ho => hopened o (List.mem_append_left _ ho)⟩
      (hannounced server n)

/-- Before a round was opened, an action sent all its requests. -/
theorem exists_sentBy {setup : Setup} {actions : List Action} {before since : List Observation}
    {id : RequestId} {trigger : Trigger} {cursor : Cursor} {servers : List ServerId}
    (h : (setup.session.after actions).trace =
      before ++ .event (.requested id trigger cursor servers) :: since) :
    ∃ past a later, actions = past ++ a :: later ∧ ∀ server n, SentLast before server n →
      ∃ old sent params e, before = old ++ .call (.request n server .completion params) :: sent ∧
        SentBy setup past a n server cursor old params e := by
  induction actions using List.reverseRecOn generalizing since with
  | nil =>
    have hm : .event (.requested id trigger cursor servers) ∈ setup.session.trace := by
      change setup.session.trace = _ at h
      rw [h]
      simp
    simp [Setup.session, log] at hm
  | append_singleton actions a ih =>
    have earlier (hl : ∃ l, (setup.session.after actions).trace =
        before ++ .event (.requested id trigger cursor servers) :: l) :
        ∃ past b later, actions ++ [a] = past ++ b :: later ∧ ∀ server n, SentLast before server n →
          ∃ old sent params e,
            before = old ++ .call (.request n server .completion params) :: sent ∧
              SentBy setup past b n server cursor old params e := by
      obtain ⟨l, hl⟩ := hl
      obtain ⟨past, b, later, rfl, hsent⟩ := ih hl
      exact ⟨past, b, later ++ [a], by simp, hsent⟩
    have hact := h
    rw [after_concat] at hact
    rcases act_cases (setup.session.after actions) a with hc | hc
    · rcases Evolves.opening hc (after_announced setup actions) hact with hl |
        ⟨v, obs, hv, hannounced, rfl, hasks, hedits, rfl⟩
      · exact earlier hl
      · exact ⟨actions, a, [], rfl, fun server n =>
          Evolves.sentBy hv hannounced hasks hedits ⟨_, h.symm⟩⟩
    · exact earlier (hc.adds.told_before (by simp [kind]) hact)

/-- Nothing is asked when a server is attached. -/
theorem SentBy.attaches_eq {setup : Setup} {past : List Action} {a : Action} {n : Nat}
    {server : ServerId} {cursor : Cursor} {old : List Observation} {params : Json} {e : Encoding}
    (h : SentBy setup past a n server cursor old params e) (x : ServerId) :
    a.attaches x = false := by
  obtain ⟨⟨⟨earlier, rfl⟩, later, hact⟩, -, -⟩ := h
  rw [after_concat] at hact
  cases (setup.session.after past).act_bearing a with
  | attach y capabilities options =>
    have hadds := Adds.attach (setup.session.after past) y capabilities options
    obtain ⟨l, hl⟩ := hadds.told_before
      (o := .call (.request n server .completion params)) (by simp [kind])
      (show _ = _ from hact.symm.trans (List.append_assoc ..))
    simpa using congrArg List.length hl
  | detach => rfl
  | answer => rfl
  | none _ ha => exact ha x

/-- An action ends the round that is under way, with the answers that it then holds: the last server
answers, or is detached after others have answered. -/
inductive Finishes (s : Session) : Action → Round → Prop where
  | answer {place n : Nat} {server : ServerId} {c : Round} {reply : Reply}
      (hm : s.queue[place]? = some (.reply n server (.completion c.id) reply))
      (live : s.isLive (.reply n server (.completion c.id) reply) = true)
      (hc : s.round = some c) (last : (c.record server reply).pending.isEmpty = true) :
      Finishes s (.deliver place) (c.record server reply)
  | detach {server : ServerId} {c : Round} (hc : s.round = some c)
      (attached : s.bindings.contains server = true)
      (last : (c.drop server).pending.isEmpty = true)
      (answered : (c.drop server).replies.isEmpty = false) :
      Finishes s (.detach server) (c.drop server)

/-- The answers of the round that ends are merged. It has its story, and is about attached servers
only. -/
theorem Finishes.story {s : Session} {a : Action} {c : Round} (h : Finishes s a c) (hs : Historic s)
    (hg : Advancing s) : ∃ u servers before since notes, s.act a = u.finishRound c ∧
      Story u c servers before since notes ∧ u.matcher = s.matcher ∧
      ∀ x, c.replies.contains x = true → u.bindings.contains x = true := by
  cases h with
  | @answer place n server c reply hm live hc last =>
    obtain ⟨servers, before, since, notes, hstory⟩ := hs.story c hc
    obtain ⟨d, hd, -, hn, hdeliver, -⟩ := hg.deliver_completion hm live
    obtain rfl := Option.some.inj (hc.symm.trans hd)
    rw [if_pos last] at hdeliver
    refine ⟨_, servers, before, _, _, hdeliver, hstory.record hn reply rfl rfl, rfl,
      fun x hx => ?_⟩
    exact (hg.round c hc).attached x
      ((Round.involves_record (Option.isSome_of_eq_some hn) reply x).mp (.inr hx))
  | @detach server c hc attached last answered =>
    obtain ⟨servers, before, since, notes, hstory⟩ := hs.story c hc
    have hdetach := (hg.detach_round hc attached).1
    rw [if_neg (by simp [last]), if_neg (by simp [answered])] at hdetach
    have hdrop : Story (s.unbind server) (c.drop server) servers before _ _ :=
      hstory.detached server rfl rfl
    obtain ⟨more, hmore⟩ := hdrop.extend
      ((Adds.detachFromSignature (s.unbind server) server).mono (by simp))
      (by rw [detachFromSignature_frame])
    obtain ⟨rest, hrest⟩ := hmore.extend ((Adds.dropServer _ c server).mono (by simp))
      (by rw [dropServer_frame])
    refine ⟨_, servers, before, rest, _, hdetach, hrest, ?_, fun x hx => ?_⟩
    · rw [dropServer_frame, detachFromSignature_frame]
      rfl
    rw [dropServer_frame, detachFromSignature_frame]
    obtain ⟨hne, hx⟩ := (c.involves_drop server x).mp (.inr hx)
    exact Table.contains_erase.mpr ⟨hne, (hg.round c hc).attached x hx⟩

/-- The time that answers take is recorded when they are merged. -/
theorem Change.latency_eq {s t : Session} (hc : Change s t) : t.latency = s.latency := by
  rw [hc.frame]

theorem TextChange.latency_eq {s t : Session} (hc : TextChange s t) : t.latency = s.latency := by
  rw [hc.frame]

/-- Nothing is merged: nothing is shown, and no time is recorded. -/
def Unmerged (s t : Session) : Prop := t.latency = s.latency ∧ Tells (·.kind ≠ .shown) s t

theorem Adds.unmerged {kinds : List Kind} {s t : Session} (h : Adds kinds s t)
    (hk : Kind.shown ∉ kinds) (hl : t.latency = s.latency) : Unmerged s t := by
  obtain ⟨obs, hobs, ho⟩ := h
  exact ⟨hl, obs, hobs, fun o hm he => hk (he ▸ ho o hm)⟩

theorem Evolves.unmerged {s t : Session} (h : Evolves s t) : Unmerged s t := by
  refine Adds.unmerged (Evolves.adds h) (by simp) ?_
  exact Evolves.keeps (P := fun u => u.latency = s.latency)
    (fun _ _ hc hu => hc.latency_eq.trans hu) (fun _ _ hc hu => hc.latency_eq.trans hu) h rfl

theorem detach_unmerged {s : Session} (hg : Advancing s) {server : ServerId}
    (h : ∀ c, ¬ Finishes s (.detach server) c) : Unmerged s (s.detach server) := by
  by_cases attached : s.bindings.contains server = true
  case neg =>
    have he : s.detach server = s := by simp [detach, attached]
    rw [he]
    exact ⟨rfl, .of_eq rfl⟩
  have hunbind : Adds [.detached] s (s.unbind server) := .one rfl (by simp [kind])
  have hsignature : Adds [.detached, .plain, .cancel, .givenUp] s
      ((s.unbind server).detachFromSignature server) :=
    (hunbind.mono (by simp)).trans
      ((Adds.detachFromSignature (s.unbind server) server).mono (by simp))
  cases hc : s.round with
  | none =>
    have hr : ((s.unbind server).detachFromSignature server).round = none := by
      rw [detachFromSignature_frame]
      exact hc
    rw [detach_eq attached, detachFromRound, hr]
    exact hsignature.unmerged (by simp) (by rw [detachFromSignature_frame]; rfl)
  | some c =>
    have hdetach := (hg.detach_round hc attached).1
    have hdrop := hsignature.trans ((Adds.dropServer _ c server).mono (by simp))
    rw [hdetach]
    split
    · exact hdrop.unmerged (by simp) (by rw [dropServer_frame, detachFromSignature_frame]; rfl)
    next last =>
      split
      · refine (hdrop.trans (.one rfl (by simp [kind]))).unmerged (by simp) ?_
        dsimp only [emit]
        rw [dropServer_frame, detachFromSignature_frame]
        rfl
      next answered =>
        exact absurd (.detach hc attached (by simpa using last) (by simpa using answered)) (h _)

/-- Answers are merged only when a round ends with them. -/
theorem act_unmerged {s : Session} (hg : Advancing s) {a : Action} (h : ∀ c, ¬ Finishes s a c) :
    Unmerged s (s.act a) := by
  cases s.act_bearing a with
  | attach server capabilities options =>
    exact (Adds.attach s server capabilities options).unmerged (by simp)
      (by rw [attach_frame])
  | detach server => exact detach_unmerged hg h
  | @answer place n server id reply hm live =>
    obtain ⟨c, hc, rfl, hn, hdeliver, -⟩ := hg.deliver_completion hm live
    change Unmerged s (s.deliver place)
    rw [hdeliver]
    split
    next last => exact absurd (.answer hm live hc last) (h _)
    next => exact ⟨rfl, .one rfl (by simp [kind])⟩
  | none he => exact Evolves.unmerged he

theorem mem_answers {replies : ServerMap Reply} {bindings : ServerMap Binding} {answer : Answer}
    (h : answer ∈ answers replies bindings) :
    ∃ value, replies.find? answer.server = some (.ok value) ∧ answer.response = .ofJson value ∧
      answer.encoding = encodingIn bindings answer.server := by
  obtain ⟨⟨server, reply⟩, hr, he⟩ := List.mem_filterMap.mp h
  cases reply with
  | ok value =>
    obtain rfl := Option.some.inj he
    exact ⟨value, (Table.find?_eq_some_iff ..).mpr hr, rfl, rfl⟩
  | error e => cases he

theorem exists_mem_answers {replies : ServerMap Reply} {server : ServerId} {value : Json}
    (h : replies.find? server = some (.ok value)) (bindings : ServerMap Binding) :
    ∃ answer ∈ answers replies bindings, answer.server = server :=
  ⟨_, List.mem_filterMap.mpr ⟨(server, .ok value), (Table.find?_eq_some_iff ..).mp h, rfl⟩, rfl⟩

/-- In every run, answers are merged only by an action that ends a round with them. Each of them is then
read in the encoding that was agreed on when its server was attached last. This is the encoding of its
request, unless the server was attached again after the request was sent. -/
theorem mergedAnswers_encoding (setup : Setup) (past : List Action) (a : Action) :
    let s := setup.session.after past
    let t := setup.session.after (past ++ [a])
    ((∀ c, ¬ Finishes s a c) → Unmerged s t) ∧
      ∀ c, Finishes s a c →
        (∃ u : Session, t = u.finishRound c ∧
          u.mergeRound c = { t with matcher := s.matcher }.mergeRound c) ∧
        (t.mergeRound c).startColumn = t.mergeRequest.startColumn (answers c.replies t.bindings) ∧
        ∀ answer ∈ answers c.replies t.bindings,
          ∃ n value asked b meanwhile old params e, past ++ [a] = asked ++ b :: meanwhile ∧
            SentBy setup asked b n answer.server c.cursor old params e ∧
            .note (.recorded n answer.server (.ok value)) ∈ t.trace ∧
            answer.response = .ofJson value ∧
            t.mergeRequest.opinion answer = resolveStart t.buffer.cursor.line t.buffer.currentLine
              (Response.ofJson value).items answer.encoding ∧
            answer.encoding = meanwhile.foldl (fun e a => a.agreed answer.server e) e ∧
            ((∀ m ∈ meanwhile, m.attaches answer.server = false) → answer.encoding = e) := by
  intro s t
  have ht : t = s.act a := after_concat ..
  refine ⟨fun h => ht ▸ act_unmerged (after_advancing setup past) h, fun c hf => ?_⟩
  obtain ⟨u, servers, before, since, notes, hu, hstory, hmatcher, hattached⟩ :=
    hf.story (after_historic setup past) (after_advancing setup past)
  rw [← ht] at hu
  have hbindings : t.bindings = u.bindings := by rw [hu, finishRound_frame]
  obtain ⟨later, hlater, -⟩ := Adds.finishRound u c
  have htrace : t.trace =
      before ++ .event (.requested c.id c.trigger c.cursor servers) :: (since ++ later) := by
    rw [hu, hlater, hstory.trace, List.append_assoc, List.cons_append]
  refine ⟨⟨u, hu, by rw [hu, finishRound_frame, ← hmatcher]; rfl⟩, rfl, fun answer hanswer => ?_⟩
  obtain ⟨value, hreply, hresponse, hencoding⟩ := mem_answers hanswer
  obtain ⟨n, hsent, hkept⟩ := (hstory.replies answer.server (.ok value)).mp hreply
  obtain ⟨asked, b, meanwhile, hrun, hall⟩ := exists_sentBy htrace
  obtain ⟨old, sent, params, e, -, hby⟩ := hall answer.server n hsent
  have hnow : t.CountsIn answer.server (meanwhile.foldl (fun e a => a.agreed answer.server e) e) := by
    obtain ⟨d, hd, he⟩ := hby.attached
    have hthen : (setup.session.after asked).CountsIn answer.server e := fun d' hd' => by
      rw [Option.some.inj (hd'.symm.trans hd), he]
    have hcounts := after_countsIn hthen (b :: meanwhile)
    rw [← after_append, ← hrun] at hcounts
    rwa [List.foldl_cons, b.agreed_of_not_attaches (hby.attaches_eq _)] at hcounts
  have hfold : answer.encoding = meanwhile.foldl (fun e a => a.agreed answer.server e) e := by
    obtain ⟨d, hd⟩ := Option.isSome_iff_exists.mp
      (hattached answer.server (Option.isSome_of_eq_some hreply))
    rw [← hbindings] at hd
    rw [hencoding, encodingIn, hd]
    exact hnow d hd
  have hrecorded : .note (.recorded n answer.server (.ok value)) ∈ t.trace := by
    rw [htrace]
    have hm := mem_notes.mp (hstory.noted.symm ▸ hkept.mem)
    simp [hm]
  exact ⟨n, value, asked, b, meanwhile, old, params, e, hrun, hby, hrecorded, hresponse,
    by rw [opinion, hresponse]; rfl, hfold, fun hm => hfold.trans (foldl_agreed hm e)⟩

/-- A server that counts in UTF-16 is asked, is attached again with UTF-8, and then answers with a range
that starts between the two characters of the line. -/
def attachedAgain : Setup × List Action × Action :=
  ({ config := {}, uri := "file:///a", lines := ["äb".toList], cursor := ⟨0, 3⟩, missing := [],
     signatureView := false, snippets := [], matcher := ⟨fun _ _ => true⟩, commands := none,
     cancellable := true },
   [.attach ⟨1⟩ { completion := some {} } {}, .triggerCompletion,
    .attach ⟨1⟩ { completion := some {}, positionEncoding := some "utf-8" } {},
    .respond (.number 0) (.ok (.arr [itemFrom 1 "b"]))], .deliver 0)

/-- A message that holds an answer of the only server, which is no error. -/
def isAnswer : Message → Bool
  | .reply _ server _ (.ok _) => server = ⟨1⟩
  | _ => false

/-- How many requests for completions were sent. -/
def askings (s : Session) : Nat := s.trace.countP (·.kind = .asking)

theorem SentBy.askings_lt {setup : Setup} {past : List Action} {a : Action} {n : Nat}
    {server : ServerId} {cursor : Cursor} {old : List Observation} {params : Json} {e : Encoding}
    (h : SentBy setup past a n server cursor old params e) :
    (setup.session.after past).askings < (setup.session.after (past ++ [a])).askings := by
  have hbefore := h.told.1.sublist.countP_le (p := (·.kind = .asking))
  have hafter := h.told.2.sublist.countP_le (p := (·.kind = .asking))
  rw [List.countP_append] at hafter
  have hone : [Observation.call (.request n server .completion params)].countP
      (·.kind = .asking) = 1 := by simp [kind]
  unfold askings
  omega

/-- The answer is read as if its range started behind the first byte. -/
theorem mergedAnswers_encoding_attachedAgain :
    let (setup, past, a) := attachedAgain
    let t := setup.session.after (past ++ [a])
    some 0 ∈ t.trace.map shownStart? ∧
      ∃ c, Finishes (setup.session.after past) a c ∧ ∃ answer ∈ answers c.replies t.bindings,
        ∃ n asked b meanwhile old params, past ++ [a] = asked ++ b :: meanwhile ∧
          SentBy setup asked b n answer.server c.cursor old params .utf16 ∧
          answer.encoding = .utf8 := by
  have hshown : some 0 ∈ (attachedAgain.1.session.after
      (attachedAgain.2.1 ++ [attachedAgain.2.2])).trace.map shownStart? := by
    decide +kernel
  have hbefore : (attachedAgain.1.session.after attachedAgain.2.1).trace.all (·.kind ≠ .shown) := by
    decide +kernel
  have hqueue : (attachedAgain.1.session.after attachedAgain.2.1).queue.all isAnswer := by
    decide +kernel
  have hutf8 : encodingIn (attachedAgain.1.session.after
      (attachedAgain.2.1 ++ [attachedAgain.2.2])).bindings ⟨1⟩ = .utf8 := by
    decide +kernel
  have hasked : ∀ actions ∈ (attachedAgain.2.1 ++ [attachedAgain.2.2]).inits,
      let s := attachedAgain.1.session.after actions
      s.askings ≤ 1 ∧ (s.askings = 0 → encodingIn s.bindings ⟨1⟩ = .utf16) := by
    decide +kernel
  obtain ⟨hunmerged, hmerged⟩ :=
    mergedAnswers_encoding attachedAgain.1 attachedAgain.2.1 attachedAgain.2.2
  have hfinishes : ∃ c, Finishes (attachedAgain.1.session.after attachedAgain.2.1)
      attachedAgain.2.2 c := by
    by_contra hno
    obtain ⟨-, obs, hobs, hnone⟩ := hunmerged (not_exists.mp hno)
    obtain ⟨o, hm, ho⟩ := List.mem_map.mp hshown
    have hkind : o.kind = .shown := by
      unfold shownStart? at ho
      split at ho
      · rfl
      · cases ho
    rw [hobs] at hm
    rcases List.mem_append.mp hm with hm | hm
    · exact absurd hkind (by simpa using List.all_eq_true.mp hbefore o hm)
    · exact hnone o hm hkind
  obtain ⟨c, hf⟩ := hfinishes
  refine ⟨hshown, c, hf, ?_⟩
  obtain ⟨-, -, hanswers⟩ := hmerged c hf
  obtain ⟨value, hvalue⟩ : ∃ value, c.replies.find? ⟨1⟩ = some (.ok value) := by
    change Finishes _ (.deliver 0) c at hf
    cases hf with
    | @answer _ n server d reply hm live hc last =>
      have hanswer := List.all_eq_true.mp hqueue _ (List.mem_of_getElem? hm)
      cases reply with
      | ok value =>
        obtain rfl : server = ⟨1⟩ := of_decide_eq_true hanswer
        exact ⟨value, by rw [Round.replies_record, if_pos rfl]⟩
      | error e => cases hanswer
  obtain ⟨answer, hmem, hserver⟩ := exists_mem_answers hvalue
    (attachedAgain.1.session.after (attachedAgain.2.1 ++ [attachedAgain.2.2])).bindings
  obtain ⟨_, -, -, hencoding⟩ := mem_answers hmem
  rw [hserver, hutf8] at hencoding
  obtain ⟨n, _, asked, b, meanwhile, old, params, e, hrun, hby, -⟩ := hanswers answer hmem
  refine ⟨answer, hmem, n, asked, b, meanwhile, old, params, hrun, ?_, hencoding⟩
  obtain ⟨hafter, -⟩ := hasked (asked ++ [b])
    ((List.mem_inits _ _).mpr ⟨meanwhile, by rw [hrun]; simp⟩)
  obtain ⟨-, hutf16⟩ := hasked asked ((List.mem_inits _ _).mpr ⟨b :: meanwhile, hrun.symm⟩)
  obtain rfl : e = .utf16 := by
    obtain ⟨d, hd, rfl⟩ := hby.attached
    have hlt := hby.askings_lt
    rw [hserver] at hd
    rw [← hutf16 (by omega), encodingIn, hd]
    rfl
  exact hby

end Session
end Autocomplete

import Autocomplete.Proofs.Session.Coherence
import Autocomplete.Proofs.Session.Outcome

/-! The outcome of a round does not depend on the order in which its answers come. Two sessions that
take the same answers, each in its own order, have the same round in the end, and what the end of a
round tells is a function of the round and of the text, the servers and the clock at that time. -/
namespace Autocomplete

namespace Round

/-- Puts in several answers. -/
def recordAll (c : Round) (answers : List (ServerId × Reply)) : Round :=
  answers.foldl (fun c a => c.record a.1 a.2) c

theorem record_comm (c : Round) {j k : ServerId} (hne : j ≠ k) (p q : Reply) :
    (c.record j p).record k q = (c.record k q).record j p := by
  simp only [record, c.pending.erase_comm j k, c.replies.insert_comm hne p q]

/-- The answers of different servers may be put in in any order. -/
theorem recordAll_perm (c : Round) {first second : List (ServerId × Reply)}
    (hp : first.Perm second) (hn : (first.map (·.1)).Nodup) :
    c.recordAll first = c.recordAll second := by
  apply hp.foldl_eq'
  intro a ha b hb d
  by_cases hab : a.1 = b.1
  · have he : a = b := List.inj_on_of_nodup_map hn ha hb hab
    rw [he]
  · exact d.record_comm hab a.2 b.2

theorem mem_keys_record (c : Round) (server x : ServerId) (reply : Reply) :
    x ∈ (c.record server reply).pending.keys ↔ x ≠ server ∧ x ∈ c.pending.keys := by
  simp only [Table.mem_keys_iff, pending_record]
  by_cases hx : server = x
  · simp [hx]
  · simp [hx, Ne.symm hx]

theorem pending_isEmpty_iff (c : Round) : c.pending.isEmpty = true ↔ ∀ x, x ∉ c.pending.keys := by
  simp only [Table.isEmpty_iff, Table.mem_keys_iff, not_exists, Option.eq_none_iff_forall_ne_some]

end Round

namespace Session

/-- What the end of a round does not share with the time that passes meanwhile. -/
structure Apart (s t : Session) : Prop where
  round : t.round = s.round
  bindings : t.bindings = s.bindings
  matcher : t.matcher = s.matcher
  reported : t.reported = s.reported
  outcomes : t.outcomes = s.outcomes

/-- All that the end of a given round depends on. -/
structure Alike (s t : Session) : Prop where
  buffer : t.buffer = s.buffer
  visible : t.popup.visible = s.popup.visible
  now : t.now = s.now
  bindings : t.bindings = s.bindings
  matcher : t.matcher = s.matcher
  reported : t.reported = s.reported
  outcomes : t.outcomes = s.outcomes

/-- What the end of a round tells depends on nothing else. -/
theorem Alike.finishRound {s t : Session} (h : Alike s t) (round : Round) :
    (t.finishRound round).outcomes = (s.finishRound round).outcomes := by
  have hm : t.mergeRound round = s.mergeRound round := by
    simp only [mergeRound, h.buffer, h.bindings, h.matcher]
  have hs : t.shown round = s.shown round := by
    simp only [shown, hm, h.visible, h.now]
  rw [finishRound_outcomes, finishRound_outcomes, hs, hm, h.buffer, h.outcomes,
    reportFailures_told round.id (s.mergeRound round).errors h.reported h.outcomes]

/-- Answers to the requests of one round are taken, one after the other; in between, things only
happen around the session. The session before the last answer and the one after it are singled out. -/
inductive Gathers (id : RequestId) :
    Session → List (ServerId × Reply) → Session → Session → Prop where
  | outside {s u t : Session} {answers : List (ServerId × Reply)} (o : DirectOperation)
      (ho : o.1.isOutside = true) (rest : Gathers id (s.act (.perform o)) answers u t) :
      Gathers id s answers u t
  | answer {s u t : Session} {answers : List (ServerId × Reply)} {place number : Nat}
      {server : ServerId} {reply : Reply}
      (hm : s.queue[place]? = some (.reply number server (.completion id) reply))
      (live : s.isLive (.reply number server (.completion id) reply) = true)
      (rest : Gathers id (s.deliver place) answers u t) :
      Gathers id s ((server, reply) :: answers) u t
  | last {s : Session} {place number : Nat} {server : ServerId} {reply : Reply}
      (hm : s.queue[place]? = some (.reply number server (.completion id) reply))
      (live : s.isLive (.reply number server (.completion id) reply) = true) :
      Gathers id s [(server, reply)] s (s.deliver place)

theorem Gathers.ne_nil {id : RequestId} {s u t : Session} {answers : List (ServerId × Reply)}
    (h : Gathers id s answers u t) : answers ≠ [] := by
  induction h with
  | outside _ _ _ ih => exact ih
  | answer => simp
  | last => simp

theorem Apart.edit (s : Session) (cause : EditCause) (start stop : Cursor) (text : List Char) :
    Apart s (s.edit cause start stop text) :=
  ⟨rfl, rfl, rfl, rfl, s.outcomes_edit cause start stop text⟩

/-- What happens around a session neither changes its round nor tells anything. -/
theorem outside_apart (s : Session) (o : DirectOperation) (ho : o.1.isOutside = true) :
    Apart s (s.act (.perform o)) := by
  obtain ⟨o, hd⟩ := o
  cases o with
  | insertText text => exact .edit s .user _ _ text
  | backspace =>
    change Apart s s.backspace
    unfold backspace
    extract_lets line column
    split
    · exact ⟨rfl, rfl, rfl, rfl, rfl⟩
    · exact .edit s .user _ _ _
  | respond target reply =>
    change Apart s (s.respond target reply).1
    unfold respond
    split
    next n _ =>
      have hf := s.answer_frame n reply
      dsimp only
      rw [hf]
      exact ⟨rfl, rfl, rfl, rfl, rfl⟩
    · exact ⟨rfl, rfl, rfl, rfl, rfl⟩
  | _ => first
    | exact ⟨rfl, rfl, rfl, rfl, rfl⟩
    | contradiction

theorem Coherent.act {s : Session} (h : Coherent s) (a : Action) : Coherent (s.act a) :=
  after_induction (fun _ _ hc h => hc.coherent h) (fun _ _ hc h => hc.coherent h)
    (fun _ _ hc h => hc.coherent h) h [a]

/-- An answer that the round waits for is put into it. If it is the last one, the round ends. -/
theorem Coherent.deliver_answer {s : Session} (h : Coherent s) {c : Round} (hc : s.round = some c)
    {place number : Nat} {server : ServerId} {reply : Reply}
    (hm : s.queue[place]? = some (.reply number server (.completion c.id) reply))
    (live : s.isLive (.reply number server (.completion c.id) reply) = true) :
    let d := c.record server reply
    ∃ v : Session, Apart { s with round := some d } v ∧ v.buffer = s.buffer ∧
      v.popup.visible = s.popup.visible ∧ v.now = s.now ∧
      s.deliver place = if d.pending.isEmpty then v.finishRound d else v := by
  intro d
  obtain ⟨e, he, _, hn⟩ := h.pending_of_live hm live
  obtain rfl : c = e := Option.some.inj (hc.symm.trans he)
  let rest : Session := { s with queue := s.queue.eraseIdx place }
  let v := { rest with round := some d }.note (.recorded number server reply)
  have hv : v.outcomes = s.outcomes := outcomes_note ..
  refine ⟨v, ⟨rfl, rfl, rfl, rfl, hv⟩, rfl, rfl, rfl, ?_⟩
  rw [deliver_eq hm]
  simp only [handle, live, if_true]
  exact takeCompletion_eq (s := rest) reply hc hn

/-- In the end the round holds all answers, and nothing was told before the last one. -/
theorem Gathers.ends {s u t : Session} {c : Round} {answers : List (ServerId × Reply)}
    (h : Gathers c.id s answers u t) (hs : Coherent s) (hc : s.round = some c)
    (hn : (answers.map (·.1)).Nodup) (hk : ∀ x, x ∈ c.pending.keys ↔ x ∈ answers.map (·.1)) :
    u.bindings = s.bindings ∧ u.outcomes = s.outcomes ∧
      ∃ v, t = v.finishRound (c.recordAll answers) ∧ Alike u v ∧
        v.matcher = s.matcher ∧ v.reported = s.reported := by
  generalize hid : c.id = id at h
  induction h generalizing c with
  | @outside s u t answers o ho rest ih =>
    have ha := outside_apart s o ho
    have he := ih (hs.act _) (ha.round.trans hc) hn hk hid
    rwa [ha.bindings, ha.outcomes, ha.matcher, ha.reported] at he
  | @answer s u t answers place number server reply hm live rest ih =>
    subst hid
    obtain ⟨v, ha, _, _, _, hd⟩ := hs.deliver_answer hc hm live
    obtain ⟨hhead, htail⟩ := List.nodup_cons.mp hn
    have hkeys (x : ServerId) :
        x ∈ (c.record server reply).pending.keys ↔ x ∈ answers.map (·.1) := by
      rw [Round.mem_keys_record, hk, List.map_cons, List.mem_cons]
      constructor
      · rintro ⟨hne, hx⟩
        exact hx.resolve_left hne
      · intro hx
        exact ⟨fun he => hhead (he ▸ hx), .inr hx⟩
    have hopen : ¬ (c.record server reply).pending.isEmpty = true := by
      rw [Round.pending_isEmpty_iff]
      intro hnone
      obtain ⟨a, ha⟩ := List.exists_mem_of_ne_nil _ rest.ne_nil
      exact hnone a.1 ((hkeys a.1).mpr (List.mem_map_of_mem ha))
    rw [if_neg hopen] at hd
    have hcoh : Coherent (s.deliver place) := hs.act (.deliver place)
    rw [hd] at rest ih hcoh
    have he := ih hcoh ha.round htail hkeys rfl
    rw [ha.bindings, ha.outcomes, ha.matcher, ha.reported] at he
    exact he
  | @last s place number server reply hm live =>
    subst hid
    obtain ⟨v, ha, hb, hp, ht, hd⟩ := hs.deliver_answer hc hm live
    have hclosed : (c.record server reply).pending.isEmpty = true := by
      rw [Round.pending_isEmpty_iff]
      intro x hx
      obtain ⟨hne, hx⟩ := (c.mem_keys_record server x reply).mp hx
      exact hne (by simpa using (hk x).mp hx)
    rw [if_pos hclosed] at hd
    exact ⟨rfl, rfl, v, hd, ⟨hb, hp, ht, ha.bindings, ha.matcher, ha.reported, ha.outcomes⟩,
      ha.matcher, ha.reported⟩

/-- Every server that a round waits for answers it, and the answers are taken in two orders. If the
text, the popup and the clock are the same before the last answer, the same is told of it: the popup
is presented with the same list or not at all, the user is notified of the same problems, and the same
events are published. -/
theorem outcomes_anyOrder (setup : Setup) (past : List Action) {c : Round} {u t v w : Session}
    {assignment : ServerMap Reply} {first second : List (ServerId × Reply)} :
    let s := setup.session.after past
    s.round = some c → assignment.keys = c.pending.keys →
    first.Perm assignment.entries → second.Perm assignment.entries →
    Gathers c.id s first u t → Gathers c.id s second v w →
    v.buffer = u.buffer → v.popup.visible = u.popup.visible → v.now = u.now →
    w.outcomes = t.outcomes ∧ u.outcomes = s.outcomes ∧ v.outcomes = s.outcomes ∧
      t.round = none ∧ w.round = none := by
  intro s hc hkeys hfirst hsecond ht hw hbuffer hvisible hnow
  have hs : Coherent s := after_coherent setup past
  have hnodup {answers : List (ServerId × Reply)} (hp : answers.Perm assignment.entries) :
      (answers.map (·.1)).Nodup := (hp.map _).nodup_iff.mpr assignment.nodup_keys
  have hmem {answers : List (ServerId × Reply)} (hp : answers.Perm assignment.entries)
      (x : ServerId) : x ∈ c.pending.keys ↔ x ∈ answers.map (·.1) := by
    rw [← hkeys]
    exact (hp.map _).mem_iff.symm
  obtain ⟨hub, huo, p, rfl, hup, hpm, hpr⟩ := ht.ends hs hc (hnodup hfirst) (hmem hfirst)
  obtain ⟨hvb, hvo, q, rfl, hvq, hqm, hqr⟩ := hw.ends hs hc (hnodup hsecond) (hmem hsecond)
  have hall : c.recordAll second = c.recordAll first :=
    c.recordAll_perm (hsecond.trans hfirst.symm) (hnodup hsecond)
  have hpq : Alike p q := by
    constructor
    · rw [hvq.buffer, hbuffer, hup.buffer]
    · rw [hvq.visible, hvisible, hup.visible]
    · rw [hvq.now, hnow, hup.now]
    · rw [hvq.bindings, hvb, hup.bindings, hub]
    · rw [hqm, hpm]
    · rw [hqr, hpr]
    · rw [hvq.outcomes, hvo, hup.outcomes, huo]
  refine ⟨?_, huo, hvo, ?_, ?_⟩
  · rw [hall]
    exact hpq.finishRound _
  · rw [finishRound_frame]
  · rw [finishRound_frame]

/-- Two servers are asked; one has an error and the other an item. -/
def twoAnswers : Setup × List Action × ServerMap Reply :=
  ({ config := {}, uri := "file:///a", lines := [[]], cursor := ⟨0, 0⟩, missing := [],
     signatureView := false, snippets := [], matcher := ⟨fun _ _ => true⟩, commands := none,
     cancellable := true },
   [.attach ⟨1⟩ { completion := some {} } {}, .attach ⟨2⟩ { completion := some {} } {},
    .triggerCompletion],
   Table.ofList [(⟨1⟩, .error ⟨-1, "foo"⟩), (⟨2⟩, .ok (.arr [.obj [("label", .str "foo")]]))])

/-- Both answers wait, and either of them may be taken first. The user is notified of the error, which
is published, and the item is presented, which is published as well. -/
theorem outcomes_anyOrder_twoAnswers :
    let s := twoAnswers.1.session.after twoAnswers.2.1
    let answers := twoAnswers.2.2.entries
    ∃ c u t v w, s.round = some c ∧ Gathers c.id s answers u t ∧
      Gathers c.id s answers.reverse v w ∧ w.outcomes = t.outcomes ∧ t.outcomes.length = 4 := by
  intro s answers
  let c : Round := ⟨⟨1⟩, .manual, ⟨0, 0⟩, 0, [0, 1], Table.ofList [(⟨1⟩, 0), (⟨2⟩, 1)], Table.empty⟩
  have hc : s.round = some c := rfl
  let error : Reply := .error ⟨-1, "foo"⟩
  let item : Reply := .ok (.arr [.obj [("label", .str "foo")]])
  let waiting := (s.act (.respond (.number 0) error)).act (.respond (.number 1) item)
  have around {answers : List (ServerId × Reply)} {u t : Session}
      (h : Gathers c.id waiting answers u t) : Gathers c.id s answers u t :=
    .outside ⟨.respond (.number 0) error, rfl⟩ rfl
      (.outside ⟨.respond (.number 1) item, rfl⟩ rfl h)
  let errorMessage : Message := .reply 0 ⟨1⟩ (.completion c.id) error
  let itemMessage : Message := .reply 1 ⟨2⟩ (.completion c.id) item
  have herror : waiting.queue[0]? = some errorMessage := rfl
  have hitem : waiting.queue[1]? = some itemMessage := rfl
  have hitemLeft : (waiting.deliver 0).queue[0]? = some itemMessage := rfl
  have herrorLeft : (waiting.deliver 1).queue[0]? = some errorMessage := rfl
  have ht : Gathers c.id s answers (waiting.deliver 0) ((waiting.deliver 0).deliver 0) :=
    around (.answer herror rfl (.last hitemLeft rfl))
  have hw : Gathers c.id s answers.reverse (waiting.deliver 1) ((waiting.deliver 1).deliver 0) :=
    around (.answer hitem rfl (.last herrorLeft rfl))
  have hsame := (outcomes_anyOrder twoAnswers.1 twoAnswers.2.1 hc rfl (.refl _)
    (List.reverse_perm _) ht hw rfl rfl rfl).1
  exact ⟨c, _, _, _, _, hc, ht, hw, hsame, by decide +kernel⟩

end Session
end Autocomplete

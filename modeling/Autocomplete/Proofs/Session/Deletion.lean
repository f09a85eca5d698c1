import Autocomplete.Proofs.Session.Aside
import Mathlib.Data.List.Induction

/-! Deleting text asks for results again, after a delay and as long as the cursor is not left of the
place where results were asked for. Once the cursor has left it the place is forgotten, but not the
timer of a deletion before, so that one more round may be started. -/
namespace Autocomplete

namespace Action

def textDeleted : Action := .perform ⟨.textDeleted, rfl⟩

def cursorMoved : Action := .perform ⟨.cursorMoved, rfl⟩

end Action

namespace Session

/-- Deleting text asks for results again. -/
def Qualifies (s : Session) : Prop :=
  s.config.triggerOnDelete = true ∧ s.bindings.isEmpty = false ∧
    ∃ p, s.tracked = some p ∧ p.line = s.buffer.cursor.line ∧ p.column ≤ s.buffer.cursor.column

/-- The cursor is found to have left the place. -/
inductive Forgets (s : Session) : Action → Prop where
  | textDeleted (p : Cursor) (hc : s.config.triggerOnDelete = true)
      (hb : s.bindings.isEmpty = false) (hp : s.tracked = some p)
      (h : s.buffer.cursor.line ≠ p.line ∨ s.buffer.cursor.column < p.column) :
      Forgets s .textDeleted
  | cursorMoved (p : Cursor) (hp : s.tracked = some p) (h : s.buffer.cursor.line ≠ p.line) :
      Forgets s .cursorMoved

theorem textDeleted_cases (s : Session) :
    s.Qualifies ∧ s.textDeleted =
        s.dropCompletionTimer.armCompletion s.config.deleteRetrigger .deletion .leading ∨
      s.Forgets .textDeleted ∧ s.textDeleted = { s with tracked := none } ∨
      (s.config.triggerOnDelete = false ∨ s.bindings.isEmpty = true ∨ s.tracked = none) ∧
        s.textDeleted = s := by
  unfold textDeleted
  split
  next hs =>
    have hs : s.config.triggerOnDelete = false ∨ s.bindings.isEmpty = true := by simpa using hs
    exact .inr (.inr ⟨hs.imp_right .inl, rfl⟩)
  next hs =>
    obtain ⟨hc, hb⟩ : s.config.triggerOnDelete = true ∧ s.bindings.isEmpty = false := by
      simpa using hs
    extract_lets cursor qualifies
    cases hp : s.tracked with
    | none =>
      have hq : qualifies = false := by simp [qualifies, hp]
      have hs : ({ s with tracked := none } : Session) = s := by rw [← hp]
      rw [hq]
      exact .inr (.inr ⟨.inr (.inr rfl), hs⟩)
    | some p =>
      split
      next hq =>
        obtain ⟨hl, hk⟩ : p.line = cursor.line ∧ p.column ≤ cursor.column := by
          simpa [qualifies, hp] using hq
        exact .inl ⟨⟨hc, hb, p, hp, hl, hk⟩, rfl⟩
      next hq =>
        have hn : p.line = cursor.line → cursor.column < p.column := by
          simpa [qualifies, hp] using hq
        refine .inr (.inl ⟨.textDeleted p hc hb hp ?_, rfl⟩)
        by_cases hl : p.line = cursor.line
        · exact .inr (hn hl)
        · exact .inl (Ne.symm hl)

theorem cursorMoved_cases (s : Session) :
    s.Forgets .cursorMoved ∧ s.cursorMoved = { s with tracked := none } ∨
      (∀ p, s.tracked = some p → s.buffer.cursor.line = p.line) ∧ s.cursorMoved = s := by
  unfold cursorMoved
  cases hp : s.tracked with
  | none => exact .inr ⟨nofun, rfl⟩
  | some p =>
    dsimp only
    split
    next hl => exact .inl ⟨.cursorMoved p hp (Ne.symm hl), rfl⟩
    next hl =>
      refine .inr ⟨?_, rfl⟩
      rintro _ ⟨⟩
      omega

/-- Nothing else changes when the place is forgotten. -/
theorem Forgets.act_eq {s : Session} {a : Action} (h : s.Forgets a) :
    s.act a = { s with tracked := none } := by
  cases h with
  | textDeleted p hc hb hp h =>
    rcases s.textDeleted_cases with ⟨⟨_, _, q, hq, hl, hk⟩, _⟩ | ⟨_, ht⟩ | ⟨hn, _⟩
    · obtain rfl := Option.some.inj (hp.symm.trans hq)
      omega
    · exact ht
    · simp [hc, hb, hp] at hn
  | cursorMoved p hp h =>
    rcases s.cursorMoved_cases with ⟨_, ht⟩ | ⟨hn, _⟩
    · exact ht
    · exact absurd (hn p hp) h

/-- The message at some place was that of the timer of a deletion. -/
def fired (s : Session) (place : Nat) : Session :=
  ({ s with queue := s.queue.eraseIdx place } : Session).dropCompletionTimer.startRound .deletion

/-- What an action has to do with deletions. -/
inductive DeletionStep (s : Session) (a : Action) : Prop where
  | calm (h : Calm s (s.act a))
  | arms (ha : a = .textDeleted) (hq : s.Qualifies)
      (h : s.act a =
        s.dropCompletionTimer.armCompletion s.config.deleteRetrigger .deletion .leading)
  | forgets (hf : s.Forgets a)
  | fires (place n : Nat) (ha : a = .deliver place) (hd : s.deletionTimer? = some n)
      (hm : s.queue[place]? = some (.timer .completion n))
      (h : s.act a = s.fired place)

theorem Timely.deletionStep {s : Session} (h : Timely s) (a : Action) : DeletionStep s a := by
  cases a with
  | perform o =>
    rcases perform_aside s o with ht | ht | ho | ho | ho | ⟨selection, ho⟩
    · exact .calm ht.toCalm
    · exact .calm ht.calm
    all_goals
      obtain ⟨_, _⟩ := o
      subst ho
    · rcases s.textDeleted_cases with ⟨hq, ht⟩ | ⟨hf, _⟩ | ⟨_, ht⟩
      · exact .arms rfl hq ht
      · exact .forgets hf
      · refine .calm ?_
        change Calm s s.textDeleted
        rw [ht]
        exact (Aside.incidental.refl s).toCalm
    · rcases s.cursorMoved_cases with ⟨hf, _⟩ | ⟨_, ht⟩
      · exact .forgets hf
      · refine .calm ?_
        change Calm s s.cursorMoved
        rw [ht]
        exact (Aside.incidental.refl s).toCalm
    · exact .calm (reset_calm s .insertLeave)
    · exact .calm (completeDone_calm s (s.selected? selection))
  | deliver place =>
    rcases deliver_aside s place with ht | ht | ⟨serial, c, hm, hl, hc, hd, ht⟩
    · exact .calm ht.toCalm
    · exact .calm ht.calm
    · obtain ⟨live, hk⟩ := h.known .completion serial (mem_posts.mpr (List.mem_of_getElem? hm))
      obtain rfl : live = true := by simpa [isLive, hk] using hl
      obtain ⟨timer, ha, rfl⟩ := (h.live_iff .completion serial).mp hk
      obtain rfl : c.timer = timer := by simpa [armed?, hc] using ha
      exact .fires place c.timer.serial rfl (deletionTimer?_eq_some_iff.mpr ⟨c, hc, hd, rfl⟩) hm ht

/-- The timer of a deletion is used up when it runs down. -/
theorem fired_deletionTimer? (s : Session) (place : Nat) : (s.fired place).deletionTimer? = none :=
  deletionTimer?_eq (startRound_timers ..).1

theorem fired_tracked {s : Session} {p : Cursor} (hp : s.tracked = some p) (place : Nat) :
    (s.fired place).tracked = some p := by
  refine openRound_tracked ?_ .deletion
  rw [giveUpRound_frame]
  exact hp

/-- A round is started unless there is nobody to ask. -/
theorem fired_deletionRounds (s : Session) (place : Nat) :
    (s.fired place).deletionRounds = s.deletionRounds ++ [s.lastId.next] ∨
      (s.fired place).deletionRounds = s.deletionRounds ∧
        ∀ b ∈ s.bindings.values, b.completes = false := by
  have hf := (dropCompletionTimer { s with queue := s.queue.eraseIdx place }).giveUpRound_frame
    .newRequest
  have hr := (Aside.incidental.giveUpRound
    (dropCompletionTimer { s with queue := s.queue.eraseIdx place }) .newRequest).rounds
  unfold fired startRound
  generalize (dropCompletionTimer { s with queue := s.queue.eraseIdx place }).giveUpRound
    .newRequest = t at hf hr ⊢
  have hb : t.bindings = s.bindings := by rw [hf]; rfl
  have hi : t.lastId = s.lastId := by rw [hf]; rfl
  have ht : t.deletionRounds = s.deletionRounds := hr
  rcases t.openRound_events .deletion with ⟨hn, he⟩ | ⟨servers, he, _⟩
  · refine .inr ⟨(deletionRounds_eq he).trans ht, fun b hm => ?_⟩
    rw [hb, List.map_eq_nil_iff, List.filter_eq_nil_iff] at hn
    exact Bool.eq_false_iff.mpr (hn b hm)
  · left
    rw [deletionRounds, he, List.filterMap_append, hi]
    exact congrArg (· ++ _) ht

section
variable (setup : Setup)

/-- Only a deletion that qualifies arms such a timer. -/
theorem deletionTimer_armed {past : List Action} {n : Nat}
    (hn : (setup.session.after past).deletionTimer? = some n) :
    ∃ before since, past = before ++ .textDeleted :: since ∧
      (setup.session.after before).Qualifies ∧ n = (setup.session.after before).tokens.length := by
  induction past using List.reverseRecOn with
  | nil => cases hn
  | append_singleton past a ih =>
    rw [after_concat] at hn
    have earlier (h : (setup.session.after past).deletionTimer? = some n) :
        ∃ before since, past ++ [a] = before ++ .textDeleted :: since ∧
          (setup.session.after before).Qualifies ∧
            n = (setup.session.after before).tokens.length := by
      obtain ⟨before, since, rfl, hq, hlength⟩ := ih h
      exact ⟨before, since ++ [a], by simp, hq, hlength⟩
    cases (after_timely setup past).deletionStep a with
    | calm h => exact earlier (h.timer n hn)
    | arms ha hq h =>
      rw [h] at hn
      obtain ⟨c, hc, _, hs⟩ := deletionTimer?_eq_some_iff.mp hn
      obtain rfl := Option.some.inj hc
      refine ⟨past, [], by rw [ha], hq, ?_⟩
      rw [← hs]
      exact tokensWithout_length ..
    | forgets hf =>
      rw [hf.act_eq] at hn
      exact earlier hn
    | fires place m ha hd hm h =>
      rw [h, fired_deletionTimer?] at hn
      cases hn

/-- The place is gone while the timer is armed only since it was forgotten with that timer armed. -/
theorem deletionTimer_forgotten {past : List Action} {n : Nat}
    (hn : (setup.session.after past).deletionTimer? = some n)
    (ht : (setup.session.after past).tracked = none) :
    ∃ before a since, past = before ++ a :: since ∧ (setup.session.after before).Forgets a ∧
      (setup.session.after before).deletionTimer? = some n ∧ ∀ more, more <+: since →
        (setup.session.after (before ++ a :: more)).deletionTimer? = some n ∧
        (setup.session.after (before ++ a :: more)).tracked = none := by
  induction past using List.reverseRecOn with
  | nil => cases hn
  | append_singleton past a ih =>
    rw [after_concat] at hn ht
    cases (after_timely setup past).deletionStep a with
    | calm h =>
      have htracked : (setup.session.after past).tracked = none := by
        cases hp : (setup.session.after past).tracked with
        | none => rfl
        | some p =>
          rw [h.tracked p hp] at ht
          cases ht
      obtain ⟨before, b, since, hpast, hf, hb, hsince⟩ := ih (h.timer n hn) htracked
      refine ⟨before, b, since ++ [a], by simp [hpast], hf, hb, fun more hmore => ?_⟩
      rcases List.prefix_concat_iff.mp hmore with rfl | hmore
      · rw [← List.cons_append, ← List.append_assoc, ← hpast, after_concat]
        exact ⟨hn, ht⟩
      · exact hsince more hmore
    | arms ha hq h =>
      obtain ⟨_, _, p, hp, _⟩ := hq
      rw [h] at ht
      cases hp.symm.trans ht
    | forgets hf =>
      refine ⟨past, a, [], rfl, hf, ?_, fun more hmore => ?_⟩
      · rw [hf.act_eq] at hn
        exact hn
      · obtain rfl := List.prefix_nil.mp hmore
        rw [after_concat]
        exact ⟨hn, ht⟩
    | fires place m ha hd hm h =>
      rw [h, fired_deletionTimer?] at hn
      cases hn

/-- At most one round is started for a deletion, by the message of the timer that was armed for one.
-/
inductive FiresAtMostOnce (s : Session) (actions : List Action) : Prop where
  | never (rounds : (s.after actions).deletionRounds = s.deletionRounds)
  | once (before rest : List Action) (place n : Nat)
      (split : actions = before ++ .deliver place :: rest)
      (armed : ∀ more, more <+: before → (s.after more).deletionTimer? = some n)
      (message : (s.after before).queue[place]? = some (.timer .completion n))
      (rounds : (s.after actions).deletionRounds =
        s.deletionRounds ++ [(s.after before).lastId.next])

/-- An action before that arms no timer and starts no round. -/
theorem FiresAtMostOnce.cons {s : Session} {a : Action} {actions : List Action}
    (h : (s.act a).FiresAtMostOnce actions)
    (hr : (s.act a).deletionRounds = s.deletionRounds)
    (ht : ∀ n, (s.act a).deletionTimer? = some n → s.deletionTimer? = some n) :
    s.FiresAtMostOnce (a :: actions) := by
  cases h with
  | never rounds => exact .never (rounds.trans hr)
  | once before rest place n split armed message rounds =>
    rw [hr] at rounds
    refine .once (a :: before) rest place n (by rw [split]; rfl) ?_ message rounds
    intro more hmore
    cases more with
    | nil => exact ht n (armed [] List.nil_prefix)
    | cons b more =>
      obtain ⟨rfl, hprefix⟩ := List.cons_prefix_cons.mp hmore
      exact armed more hprefix

theorem FiresAtMostOnce.of_unarmed {s : Session} {actions : List Action}
    (h : s.FiresAtMostOnce actions) (hn : s.deletionTimer? = none) :
    (s.after actions).deletionRounds = s.deletionRounds := by
  cases h with
  | never rounds => exact rounds
  | once before rest place n split armed => cases hn.symm.trans (armed [] List.nil_prefix)

/-- Until a deletion qualifies, at most the timer that is armed already starts a round for one. -/
theorem deletionRounds_unqualified (past later : List Action)
    (hq : ∀ before rest, later = before ++ .textDeleted :: rest →
      ¬ ((setup.session.after past).after before).Qualifies) :
    (setup.session.after past).FiresAtMostOnce later := by
  induction later generalizing past with
  | nil => exact .never rfl
  | cons a later ih =>
    have hrest : ((setup.session.after past).act a).FiresAtMostOnce later := by
      rw [← after_concat]
      refine ih (past ++ [a]) fun before rest he => ?_
      rw [after_concat]
      exact hq (a :: before) rest (by rw [he]; rfl)
    cases (after_timely setup past).deletionStep a with
    | calm h => exact hrest.cons h.rounds h.timer
    | arms ha hqs h => exact absurd hqs (hq [] later (by rw [ha]; rfl))
    | forgets hf =>
      refine hrest.cons ?_ ?_
      · rw [hf.act_eq]
        rfl
      · rw [hf.act_eq]
        exact fun _ => id
    | fires place n ha hd hm h =>
      -- The timer is gone now, so that nothing is started by the rest of the run.
      have hlater := hrest.of_unarmed (by rw [h, fired_deletionTimer?])
      rcases fired_deletionRounds (setup.session.after past) place with hr | ⟨hr, _⟩
      · rw [← h, ← hlater] at hr
        refine .once [] later place n (by rw [ha]; rfl) ?_ hm hr
        intro more hmore
        obtain rfl := List.prefix_nil.mp hmore
        exact hd
      · rw [← h, ← hlater] at hr
        exact .never hr

end

/-- A place is lost only by being forgotten. -/
theorem Timely.forgets_iff {s : Session} (h : Timely s) (a : Action) :
    s.tracked.isSome = true ∧ (s.act a).tracked = none ↔ s.Forgets a := by
  constructor
  · rintro ⟨hs, ht⟩
    obtain ⟨p, hp⟩ := Option.isSome_iff_exists.mp hs
    cases h.deletionStep a with
    | calm hc => cases ht.symm.trans (hc.tracked p hp)
    | arms ha hq he =>
      rw [he] at ht
      cases ht.symm.trans hp
    | forgets hf => exact hf
    | fires place n ha hd hm he =>
      rw [he, fired_tracked hp] at ht
      cases ht
  · intro hf
    rw [hf.act_eq]
    cases hf with
    | textDeleted p _ _ hp => exact ⟨by rw [hp]; rfl, rfl⟩
    | cursorMoved p hp => exact ⟨by rw [hp]; rfl, rfl⟩

/-- In every run, the place of deletions is lost by being forgotten, which changes nothing else. A
timer is armed for a deletion by one that qualifies. It is armed without a place exactly since the
place was forgotten with that timer armed, and its message starts a round for a deletion all the
same. Until a deletion qualifies again no other such round is started. -/
theorem deletionTimer_outlivesPlace (setup : Setup) (past later : List Action) :
    let s := setup.session.after past
    (∀ a, (s.tracked.isSome = true ∧ (s.act a).tracked = none ↔ s.Forgets a) ∧
      (s.Forgets a → s.act a = { s with tracked := none })) ∧
    (∀ n, s.deletionTimer? = some n → ∃ before since, past = before ++ .textDeleted :: since ∧
      (setup.session.after before).Qualifies ∧ n = (setup.session.after before).tokens.length) ∧
    (∀ n, s.deletionTimer? = some n ∧ s.tracked = none ↔
      ∃ before a since, past = before ++ a :: since ∧ (setup.session.after before).Forgets a ∧
        (setup.session.after before).deletionTimer? = some n ∧ ∀ more, more <+: since →
          (setup.session.after (before ++ a :: more)).deletionTimer? = some n ∧
          (setup.session.after (before ++ a :: more)).tracked = none) ∧
    (∀ place n, s.deletionTimer? = some n → s.queue[place]? = some (.timer .completion n) →
      (∃ b ∈ s.bindings.values, b.completes = true) →
        (s.deliver place).deletionRounds = s.deletionRounds ++ [s.lastId.next]) ∧
    ((∀ before rest, later = before ++ .textDeleted :: rest → ¬ (s.after before).Qualifies) →
      s.FiresAtMostOnce later) := by
  intro s
  have h : Timely s := after_timely setup past
  refine ⟨fun a => ⟨h.forgets_iff a, Forgets.act_eq⟩, fun n => deletionTimer_armed setup,
    fun n => ⟨fun ⟨hn, ht⟩ => deletionTimer_forgotten setup hn ht, ?_⟩, ?_,
    deletionRounds_unqualified setup past later⟩
  · rintro ⟨before, a, since, hpast, _, _, hsince⟩
    have hlast := hsince since List.prefix_rfl
    rwa [← hpast] at hlast
  · intro place n hd hm hb
    obtain ⟨c, hc, htrigger, rfl⟩ := deletionTimer?_eq_some_iff.mp hd
    have hfired : s.deliver place = s.fired place := by
      rw [h.deliver_completion hc hm, htrigger, fired]
    rw [hfired]
    rcases s.fired_deletionRounds place with hr | ⟨_, hnone⟩
    · exact hr
    · obtain ⟨b, hmem, hcompletes⟩ := hb
      cases (hnone b hmem).symm.trans hcompletes

/-- What is typed is deleted again, and before the timer runs down also what is left of the place.
-/
def deletedTwice : Setup × List Action :=
  ({ config := { triggerOnDelete := true }, uri := "file:///a", lines := ["foo.".toList],
     cursor := ⟨0, 4⟩, missing := [], signatureView := false, snippets := [],
     matcher := ⟨fun _ _ => true⟩, commands := none, cancellable := true },
   [.attach ⟨1⟩ { completion := some {} } {}, .triggerCompletion,
    .respond (.number 0) (.ok (.arr [])), .deliver 0, .perform ⟨.insertText ['b'], rfl⟩,
    .perform ⟨.backspace, rfl⟩, .textDeleted, .perform ⟨.backspace, rfl⟩, .textDeleted,
    .perform ⟨.elapse 60, rfl⟩])

/-- The place is forgotten, and a round is started. -/
theorem deletionTimer_outlivesPlace_deletedTwice :
    let s := deletedTwice.1.session.after deletedTwice.2
    s.tracked = none ∧ s.deletionTimer? = some 0 ∧ s.deletionRounds = [] ∧
      (s.deliver 0).deletionRounds = [⟨2⟩] := by
  intro s
  obtain ⟨_, _, _, hfires, _⟩ := deletionTimer_outlivesPlace deletedTwice.1 deletedTwice.2 []
  have htimer : s.deletionTimer? = some 0 := by decide +kernel
  have hrounds : s.deletionRounds = [] := by decide +kernel
  refine ⟨by decide +kernel, htimer, hrounds, ?_⟩
  have hm : s.queue[0]? = some (.timer .completion 0) := by
    with_unfolding_all rfl
  have hround := hfires 0 0 htimer hm (by decide +kernel)
  rw [hround, hrounds]
  decide +kernel

end Session
end Autocomplete

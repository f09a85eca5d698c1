import Autocomplete.Proofs.Session.Incidental

/-! What an operation leaves alone besides its own business: the timer that a deletion armed, the
place where deletions count, the rounds that deletions started, and whether the popup will be
reported closed because it was replaced. -/
namespace Autocomplete

/-- The round that a deletion started. -/
def Event.deletion? : Event → Option RequestId
  | .requested id .deletion _ _ => some id
  | _ => none

namespace Session
open Observation

/-- The token of the timer that a deletion armed. -/
def deletionTimer? (s : Session) : Option Nat :=
  s.completionTimer.bind fun c => if c.trigger = .deletion then some c.timer.serial else none

/-- The rounds that were started by deletions, in their order. -/
def deletionRounds (s : Session) : List RequestId := s.events.filterMap Event.deletion?

theorem deletionTimer?_eq_some_iff {s : Session} {n : Nat} : s.deletionTimer? = some n ↔
    ∃ c, s.completionTimer = some c ∧ c.trigger = .deletion ∧ c.timer.serial = n := by
  simp [deletionTimer?, Option.bind_eq_some_iff]

theorem deletionTimer?_eq {s t : Session} (h : t.completionTimer = s.completionTimer) :
    t.deletionTimer? = s.deletionTimer? := by rw [deletionTimer?, h, deletionTimer?]

theorem deletionRounds_eq {s t : Session} (h : t.events = s.events) :
    t.deletionRounds = s.deletionRounds := by rw [deletionRounds, h, deletionRounds]

theorem Unasked.deletionRounds_eq {s t : Session} (h : Unasked s t) :
    t.deletionRounds = s.deletionRounds := by
  apply h.filterMap_events
  intro e he
  cases e with
  | requested => cases he
  | _ => rfl

/-- No deletion arms a timer or starts a round, and its place is not forgotten. -/
structure Calm (s t : Session) : Prop where
  timer : ∀ n, t.deletionTimer? = some n → s.deletionTimer? = some n
  tracked : ∀ p, s.tracked = some p → t.tracked = some p
  rounds : t.deletionRounds = s.deletionRounds

/-- Besides, a popup that was replaced will still be reported closed, or will not be. -/
structure Aside (s t : Session) : Prop extends Calm s t where
  done : t.suppressDone = s.suppressDone

theorem Calm.trans {s t u : Session} (h : Calm s t) (g : Calm t u) : Calm s u where
  timer n hn := h.timer n (g.timer n hn)
  tracked p hp := g.tracked p (h.tracked p hp)
  rounds := g.rounds.trans h.rounds

namespace Aside

variable {s t u : Session}

theorem trans (h : Aside s t) (g : Aside t u) : Aside s u :=
  ⟨h.toCalm.trans g.toCalm, g.done.trans h.done⟩

theorem of_unasked (h : Unasked s t)
    (hf : (t.completionTimer, t.tracked, t.suppressDone) =
      (s.completionTimer, s.tracked, s.suppressDone)) : Aside s t := by
  obtain ⟨hc, hp, hd⟩ : t.completionTimer = s.completionTimer ∧ t.tracked = s.tracked ∧
      t.suppressDone = s.suppressDone := by simpa using hf
  refine ⟨⟨fun n hn => ?_, fun p ht => hp.trans ht, h.deletionRounds_eq⟩, hd⟩
  rwa [deletionTimer?_eq hc] at hn

theorem dropCompletionTimer (s : Session) : Aside s s.dropCompletionTimer where
  timer n hn := by cases hn
  tracked _ := id
  rounds := rfl
  done := rfl

theorem armCompletion (s : Session) (delay : Duration) {trigger : Trigger} (phase : Phase)
    (ht : trigger ≠ .deletion) : Aside s (s.armCompletion delay trigger phase) where
  timer n hn := by
    obtain ⟨c, hc, hd, _⟩ := deletionTimer?_eq_some_iff.mp hn
    obtain rfl := Option.some.inj hc
    exact absurd hd ht
  tracked _ := id
  rounds := Unasked.deletionRounds_eq (.one rfl rfl)
  done := rfl

end Aside

theorem openRound_tracked {s : Session} {p : Cursor} (hp : s.tracked = some p) (trigger : Trigger) :
    (s.openRound trigger).tracked = some p := by
  have ha := askAll_frame (.completion s.lastId.next) (fun s b => s.completionParams trigger b)
    { s with lastId := s.lastId.next } (s.bindings.values.filter (·.completes))
  unfold openRound
  dsimp only
  generalize askAll (.completion s.lastId.next) (fun s b => s.completionParams trigger b)
    { s with lastId := s.lastId.next } (s.bindings.values.filter (·.completes)) = result at ha ⊢
  have ht : result.1.tracked = some p := by
    rw [ha]
    exact hp
  split
  · exact ht
  · change (if _ then _ else result.1.tracked) = some p
    rw [ht, if_neg (by simp)]

namespace Aside

theorem openRound (s : Session) {trigger : Trigger} (ht : trigger ≠ .deletion) :
    Aside s (s.openRound trigger) := by
  have hf := s.openRound_frame trigger
  have hr : (s.openRound trigger).deletionRounds = s.deletionRounds := by
    rcases s.openRound_events trigger with ⟨_, he⟩ | ⟨servers, he, _⟩
    · exact deletionRounds_eq he
    · rw [deletionRounds, he, List.filterMap_append]
      cases trigger with
      | deletion => exact absurd rfl ht
      | _ => exact List.append_nil _
  refine ⟨⟨fun n hn => ?_, fun p hp => openRound_tracked hp trigger, hr⟩, by rw [hf]⟩
  rwa [deletionTimer?_eq (s := s) (by rw [hf])] at hn

theorem elapse (s : Session) (ms : Nat) : Aside s (s.elapse ms) where
  timer n hn := by
    obtain ⟨c, hc, hd, hs⟩ := deletionTimer?_eq_some_iff.mp hn
    obtain ⟨d, hcd, rfl⟩ := Option.map_eq_some_iff.mp hc
    refine deletionTimer?_eq_some_iff.mpr ⟨d, hcd, hd, ?_⟩
    rw [← hs]
    exact (markPosted_serial _ _).symm
  tracked _ := id
  rounds := rfl
  done := rfl

theorem incidental : Incidental Aside where
  trans := trans
  still hu hf := by
    simp only [Prod.mk.injEq] at hf
    obtain ⟨hc, _, hp, hd, _⟩ := hf
    exact of_unasked hu (by rw [hc, hp, hd])
  dropCompletionTimer := dropCompletionTimer
  openRound s _ := openRound s nofun
  elapse := elapse

theorem startRound (s : Session) {trigger : Trigger} (ht : trigger ≠ .deletion) :
    Aside s (s.startRound trigger) := (incidental.giveUpRound s .newRequest).trans (openRound _ ht)

theorem scheduleSubsequent (s : Session) {trigger : Trigger} (ht : trigger ≠ .deletion) :
    Aside s (s.scheduleSubsequent trigger) := by
  unfold Session.scheduleSubsequent
  extract_lets window elapsed wait t
  have hd : Aside s t := dropCompletionTimer s
  split
  · exact hd.trans (startRound _ ht)
  · exact hd.trans (armCompletion _ _ _ ht)

theorem scheduleLeading (s : Session) (c : Char) : Aside s (s.scheduleLeading c) := by
  unfold Session.scheduleLeading
  split
  · exact incidental.refl s
  · split
    · exact incidental.log ..
    · exact armCompletion _ _ _ nofun

theorem refreshVisible (s : Session) : Aside s s.refreshVisible := by
  unfold Session.refreshVisible
  split
  · exact scheduleSubsequent s nofun
  · split
    · exact scheduleSubsequent s nofun
    · exact incidental.refl s

theorem charInserted (s : Session) (c : Char) : Aside s (s.charInserted c) := by
  have hs : Aside s (if s.config.signatureHelp then s.scheduleSignatureHelp c else s) := by
    split
    · exact incidental.scheduleSignatureHelp s c
    · exact incidental.refl s
  unfold Session.charInserted
  split
  · exact incidental.refl s
  · extract_lets t
    split
    · exact hs.trans (refreshVisible t)
    · exact hs.trans (scheduleLeading t c)

end Aside

theorem RoundChange.calm {s t : Session} (h : RoundChange s t) : Calm s t := by
  have hc : t.completionTimer = s.completionTimer ∧ t.tracked = s.tracked := by
    cases h with
    | attach server capabilities options =>
      rw [attach_frame]
      exact ⟨rfl, rfl⟩
    | detach server =>
      rw [detach_frame]
      exact ⟨rfl, rfl⟩
    | takeCompletion place number server id reply =>
      rw [takeCompletion_frame]
      exact ⟨rfl, rfl⟩
  refine ⟨fun n hn => ?_, fun p hp => hc.2.trans hp, h.unasked.deletionRounds_eq⟩
  rwa [deletionTimer?_eq hc.1] at hn

theorem reset_calm (s : Session) (reason : CancelReason) : Calm s (s.reset reason) := by
  have hd := (Aside.dropCompletionTimer s).trans (Aside.incidental.dropSignatureTimer _)
  have hg := (hd.trans (Aside.incidental.cancelSignatureRound _)).trans
    (Aside.incidental.giveUpRound _ reason)
  exact ⟨hg.timer, hg.tracked, hg.rounds⟩

theorem completeDone_calm (s : Session) (selected : Option Match) :
    Calm s (s.completeDone selected) := by
  unfold completeDone
  split
  · have hl := Aside.incidental.log { s with suppressDone := false } .trace "accept"
      "Popup replaced by fresh results" []
    exact ⟨hl.timer, hl.tracked, hl.rounds⟩
  · split
    · exact reset_calm s _
    next m => exact (reset_calm s _).trans (Aside.incidental.accept _ s.expandSnippet m).toCalm

theorem perform_aside (s : Session) (o : DirectOperation) :
    Aside s (s.apply o).1 ∨ RoundChange s (s.apply o).1 ∨ o.1 = .textDeleted ∨ o.1 = .cursorMoved ∨
      o.1 = .insertLeave ∨ ∃ selection, o.1 = .completeDone selection := by
  have incidental (ho : o.1.isIncidental = true) : Aside s (s.apply o).1 :=
    Aside.incidental.perform s o ho
  obtain ⟨o, ho⟩ := o
  cases o with
  | attach => exact .inr (.inl (.attach ..))
  | detach => exact .inr (.inl (.detach ..))
  | typeChar c =>
    have ht : Aside s (s.insertText [c]) := Aside.incidental.perform s ⟨.insertText [c], rfl⟩ rfl
    exact .inl (ht.trans (.charInserted _ c))
  | charInserted c => exact .inl (.charInserted s c)
  | textDeleted => simp
  | cursorMoved => simp
  | insertLeave => simp
  | completeDone => simp
  | _ => exact .inl (incidental rfl)

/-- Of all messages, only that of a timer which a deletion armed matters here, and the answer of a
server that was asked for completions. -/
theorem deliver_aside (s : Session) (place : Nat) :
    Aside s (s.deliver place) ∨ RoundChange s (s.deliver place) ∨
      ∃ serial c, s.queue[place]? = some (.timer .completion serial) ∧
        s.isLive (.timer .completion serial) = true ∧ s.completionTimer = some c ∧
        c.trigger = .deletion ∧ s.deliver place =
          ({ s with queue := s.queue.eraseIdx place } : Session).dropCompletionTimer.startRound
            .deletion := by
  rcases Aside.incidental.deliver s place with h | h | ⟨serial, hm, hl, h⟩
  · exact .inl h
  · exact .inr (.inl h)
  · have hrest : Aside s { s with queue := s.queue.eraseIdx place } :=
      .of_unasked (.of_eq rfl) rfl
    rw [h, completionTimerElapsed]
    split
    next c hc =>
      by_cases hd : c.trigger = .deletion
      · exact .inr (.inr ⟨serial, c, hm, hl, hc, hd, by rw [hd]⟩)
      · exact .inl (hrest.trans ((Aside.dropCompletionTimer _).trans (.startRound _ hd)))
    next => exact .inl hrest

end Session
end Autocomplete

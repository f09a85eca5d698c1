import Autocomplete.Proofs.Session.Incidental
import Autocomplete.Proofs.Session.Sending

/-! The pace of requests that come of typing. While the popup is visible, results are asked for again
once the window since the last request is over, however much is typed meanwhile; while it is hidden,
the timer that the first keystroke arms stays as it is. -/
namespace Autocomplete

/-- Whether a round is asked for because the user types while the popup is visible. -/
def Trigger.isRefresh : Trigger → Bool
  | .incomplete => true
  | .refresh => true
  | _ => false

/-- The round that is asked for because the user types while the popup is visible. -/
def Event.refresh? : Event → Option RequestId
  | .requested id trigger _ _ => if trigger.isRefresh then some id else none
  | _ => none

/-- Whether the session is told of a character that was put in. -/
def Operation.isKeystroke : Operation → Bool
  | .typeChar _ => true
  | .charInserted _ => true
  | _ => false

/-- Keystrokes, and what may happen around the session meanwhile while its popup stays hidden. -/
def Operation.isTyping (o : Operation) : Bool :=
  match o with
  | .setVisible visible => !visible
  | o => o.isKeystroke || o.isOutside

def Action.isTyping : Action → Bool
  | .perform o => o.1.isTyping
  | .deliver _ => false

/-- Whether a timer was armed by typing while the popup is visible. -/
def ScheduledCompletion.IsRefresh (c : ScheduledCompletion) : Prop :=
  c.phase = .subsequent ∨ c.trigger.isRefresh = true

namespace Session
open Observation

/-- The rounds that were asked for because the user typed while the popup was visible. -/
def refreshes (s : Session) : List RequestId := s.events.filterMap Event.refresh?

/-- A timer that typing has armed while the popup was visible is due when a window has passed since
the last request. -/
def OnSchedule (W : Duration) (s : Session) : Prop :=
  ∀ c, s.completionTimer = some c → c.phase = .subsequent →
    ∃ last, s.lastRequest = some last ∧ c.timer.due = last + W.ceilMilliseconds

/-- The window is the same before and after each of some actions. -/
def WindowStays (W : Duration) : Session → List Action → Prop
  | s, [] => s.subsequentWindow = W
  | s, a :: rest => s.subsequentWindow = W ∧ (s.act a).WindowStays W rest

/-- The user stops typing, or the popup closes for another reason than that it was replaced. -/
def Restarts (s : Session) : Action → Prop
  | .perform ⟨.insertLeave, _⟩ => True
  | .perform ⟨.completeDone _, _⟩ => s.suppressDone = false
  | _ => False

/-- None of some actions puts everything about requests back. -/
def Unbroken : Session → List Action → Prop
  | _, [] => True
  | s, a :: rest => ¬ s.Restarts a ∧ (s.act a).Unbroken rest

/-- Whether results are asked for again when the user types while the popup is visible. -/
def wantsRefresh (s : Session) : Bool :=
  !s.bindings.isEmpty && (s.isIncomplete || s.bindings.values.any (·.fuzzy))

/-- What a keystroke does to the timer and the requests while the popup is visible, given the time of
the last request. -/
inductive Paces (last : Nat) (s t : Session) : Prop where
  | unwanted (wants : s.wantsRefresh = false) (timer : t.completionTimer = s.completionTimer)
      (sent : t.sent = s.sent)
  | atOnce (wants : s.wantsRefresh = true)
      (late : Duration.ofMilliseconds last + s.subsequentWindow ≤ Duration.ofMilliseconds s.now)
      (timer : t.completionTimer = none)
      (sent : t.sent = s.sent ++ (s.bindings.values.filter (·.completes)).map fun b =>
        (b.server, .completion s.lastId.next))
  | later (wants : s.wantsRefresh = true)
      (early : Duration.ofMilliseconds s.now < Duration.ofMilliseconds last + s.subsequentWindow)
      (timer : ∃ c, t.completionTimer = some c ∧ c.phase = .subsequent ∧
        c.timer.due = last + s.subsequentWindow.ceilMilliseconds)
      (sent : t.sent = s.sent)

theorem le_ofMilliseconds_ceil (W : Duration) :
    W ≤ Duration.ofMilliseconds W.ceilMilliseconds := by
  have h (w : Nat) : w ≤ (w + 999999) / 1000000 * 1000000 := by omega
  exact h W

/-- What is left of a window ends when the whole window does. -/
theorem add_ceilMilliseconds_sub {W : Duration} {last now : Nat} (hl : last ≤ now)
    (hw : Duration.ofMilliseconds (now - last) ≤ W) :
    now + Duration.ceilMilliseconds (W - Duration.ofMilliseconds (now - last)) =
      last + W.ceilMilliseconds := by
  have h (w : Nat) (hw : (now - last) * 1000000 ≤ w) :
      now + (w - (now - last) * 1000000 + 999999) / 1000000 = last + (w + 999999) / 1000000 := by
    omega
  exact h W hw

theorem le_ofMilliseconds_sub_iff {W : Duration} {last now : Nat} (hl : last ≤ now) :
    W ≤ Duration.ofMilliseconds (now - last) ↔
      Duration.ofMilliseconds last + W ≤ Duration.ofMilliseconds now := by
  have h (w : Nat) : w ≤ (now - last) * 1000000 ↔ last * 1000000 + w ≤ now * 1000000 := by omega
  exact h W

/-- No refresh is scheduled or asked for. A timer of one that is still armed was armed before, and then
nothing else was asked for either. -/
structure Unhurried (s t : Session) : Prop where
  timer : ∀ c, t.completionTimer = some c → c.IsRefresh →
    t.lastRequest = s.lastRequest ∧ ∃ d, s.completionTimer = some d ∧ d.phase = c.phase ∧
      d.trigger = c.trigger ∧ d.timer.due = c.timer.due
  asked : t.lastRequest = s.lastRequest ∨
    ∃ last, t.lastRequest = some last ∧ s.now ≤ last ∧ last ≤ t.now
  refreshes : t.refreshes = s.refreshes
  now : s.now ≤ t.now

theorem Unasked.refreshes_eq {s t : Session} (h : Unasked s t) : t.refreshes = s.refreshes := by
  apply h.filterMap_events
  intro e he
  cases e with
  | requested => cases he
  | _ => rfl

/-- The time of a request is remembered, and so is the one before if no server is asked. -/
theorem openRound_lastRequest (s : Session) (trigger : Trigger) :
    (s.openRound trigger).lastRequest = s.lastRequest ∧
        (s.openRound trigger).events = s.events ∨
      (s.openRound trigger).lastRequest = some s.now := by
  unfold openRound
  extract_lets cursor id t
  have hf := askAll_frame (.completion id) (fun s b => s.completionParams trigger b) t
    (t.bindings.values.filter (·.completes))
  have ha : Adds [.asking] t _ :=
    .askAll (.completion id) (fun s b => s.completionParams trigger b)
      (t.bindings.values.filter (·.completes)) t (by simp [kind, Purpose.method])
  split
  next u asked hu =>
    rw [hu] at ha hf
    dsimp only at ha hf
    split
    · left
      constructor
      · change u.lastRequest = s.lastRequest
        rw [hf]
      · have hl : (u.log .debug "engine" "No server accepted the completion request").events =
            u.events := Tells.events_eq (.one rfl rfl)
        rw [hl, ha.events_eq (by simp)]
        rfl
    · right
      change some u.now = some s.now
      rw [hf]

namespace Unhurried

variable {s t u : Session}

theorem of_unasked (h : Unasked s t) (hf : (t.completionTimer, t.lastRequest, t.now) =
    (s.completionTimer, s.lastRequest, s.now)) : Unhurried s t := by
  simp only [Prod.mk.injEq] at hf
  obtain ⟨hc, hl, hn⟩ := hf
  constructor
  · intro c ht _
    exact ⟨hl, c, hc ▸ ht, rfl, rfl, rfl⟩
  · exact .inl hl
  · exact h.refreshes_eq
  · exact Nat.le_of_eq hn.symm

theorem trans (h : Unhurried s t) (g : Unhurried t u) : Unhurried s u := by
  constructor
  · intro c hu hc
    obtain ⟨hlast, d, ht, hphase, htrigger, hdue⟩ := g.timer c hu hc
    have hd : d.IsRefresh := by
      unfold ScheduledCompletion.IsRefresh
      rwa [hphase, htrigger]
    obtain ⟨hfirst, e, hs, hephase, hetrigger, hedue⟩ := h.timer d ht hd
    exact ⟨hlast.trans hfirst, e, hs, hephase.trans hphase, hetrigger.trans htrigger,
      hedue.trans hdue⟩
  · rcases g.asked with hu | ⟨last, hu, hlow, hhigh⟩
    · rcases h.asked with ht | ⟨last, ht, hlow, hhigh⟩
      · exact .inl (hu.trans ht)
      · exact .inr ⟨last, hu.trans ht, hlow, Nat.le_trans hhigh g.now⟩
    · exact .inr ⟨last, hu, Nat.le_trans h.now hlow, hhigh⟩
  · exact g.refreshes.trans h.refreshes
  · exact Nat.le_trans h.now g.now

theorem dropCompletionTimer (s : Session) : Unhurried s s.dropCompletionTimer where
  timer c hc := by cases hc
  asked := .inl rfl
  refreshes := rfl
  now := Nat.le_refl _

theorem armCompletion (s : Session) (delay : Duration) {trigger : Trigger}
    (ht : trigger.isRefresh = false) : Unhurried s (s.armCompletion delay trigger .leading) where
  timer c hc hr := by
    obtain rfl := Option.some.inj hc
    rcases hr with hp | hp
    · cases hp
    · rw [ht] at hp
      cases hp
  asked := .inl rfl
  refreshes := Unasked.refreshes_eq (.one rfl rfl)
  now := Nat.le_refl _

theorem openRound (s : Session) (hc : s.completionTimer = none) {trigger : Trigger}
    (ht : trigger.isRefresh = false) : Unhurried s (s.openRound trigger) := by
  have hf := s.openRound_frame trigger
  have hnow : (s.openRound trigger).now = s.now := by rw [hf]
  constructor
  · intro c hopen _
    rw [hf] at hopen
    cases hc.symm.trans hopen
  · rcases s.openRound_lastRequest trigger with ⟨hl, _⟩ | hl
    · exact .inl hl
    · exact .inr ⟨s.now, hl, Nat.le_refl _, Nat.le_of_eq hnow.symm⟩
  · rcases s.openRound_events trigger with ⟨_, he⟩ | ⟨servers, he, _⟩
    · rw [Session.refreshes, he, Session.refreshes]
    · rw [Session.refreshes, he, List.filterMap_append]
      simp [Event.refresh?, ht, Session.refreshes]
  · exact Nat.le_of_eq hnow.symm

theorem elapse (s : Session) (ms : Nat) : Unhurried s (s.elapse ms) where
  timer c hc _ := by
    obtain ⟨d, hd, rfl⟩ := Option.map_eq_some_iff.mp hc
    refine ⟨rfl, d, hd, rfl, rfl, ?_⟩
    dsimp only [markPosted]
    split <;> rfl
  asked := .inl rfl
  refreshes := rfl
  now := Nat.le_add_right ..

theorem incidental : Incidental Unhurried where
  trans := trans
  still hu hf := by
    simp only [Prod.mk.injEq] at hf
    obtain ⟨hc, hl, _, _, hn⟩ := hf
    exact of_unasked hu (by rw [hc, hl, hn])
  dropCompletionTimer := dropCompletionTimer
  openRound s hc := openRound s hc rfl
  elapse := elapse

theorem textDeleted (s : Session) : Unhurried s s.textDeleted := by
  unfold Session.textDeleted
  split
  · exact incidental.refl s
  · extract_lets cursor qualifies
    split
    · exact (dropCompletionTimer s).trans (armCompletion _ _ rfl)
    · exact of_unasked (.of_eq rfl) rfl

theorem cursorMoved (s : Session) : Unhurried s s.cursorMoved := by
  unfold Session.cursorMoved
  split
  · split
    · exact of_unasked (.of_eq rfl) rfl
    · exact incidental.refl s
  · exact incidental.refl s

theorem of_roundChange (h : RoundChange s t) : Unhurried s t := by
  apply of_unasked h.unasked
  cases h with
  | attach server capabilities options => rw [attach_frame]
  | detach server => rw [detach_frame]
  | takeCompletion place number server id reply => rw [takeCompletion_frame]

end Unhurried

/-- The window since the last request is over. -/
def WindowOver (s : Session) : Prop :=
  ∀ last, s.lastRequest = some last →
    s.subsequentWindow ≤ Duration.ofMilliseconds (s.now - last)

theorem scheduleSubsequent_over {s : Session} (h : s.WindowOver) (trigger : Trigger) :
    s.scheduleSubsequent trigger = s.dropCompletionTimer.startRound trigger := by
  unfold scheduleSubsequent
  extract_lets window elapsed wait t
  have hw : wait = 0 := by
    dsimp only [wait, elapsed]
    split
    next last hl => exact Nat.sub_eq_zero_of_le (h last hl)
    next => exact Nat.sub_self _
  rw [if_pos hw]

theorem scheduleSubsequent_running {s : Session} {last : Nat} (hl : s.lastRequest = some last)
    (h : Duration.ofMilliseconds (s.now - last) < s.subsequentWindow) (trigger : Trigger) :
    s.scheduleSubsequent trigger = s.dropCompletionTimer.armCompletion
      (s.subsequentWindow - Duration.ofMilliseconds (s.now - last)) trigger .subsequent := by
  unfold scheduleSubsequent
  simp only [hl]
  rw [if_neg (Nat.sub_ne_zero_of_lt h)]

/-- Before a keystroke asks for results, the text and signature help may change. -/
structure Prelude (s t : Session) : Prop where
  frame : t = { s with
    buffer := t.buffer, signatureTimer := t.signatureTimer, tokens := t.tokens, trace := t.trace }
  unasked : Unasked s t

theorem Prelude.trans {s t u : Session} (h : Prelude s t) (g : Prelude t u) : Prelude s u := by
  refine ⟨?_, h.unasked.trans g.unasked⟩
  rw [g.frame, h.frame]

theorem scheduleSignatureHelp_prelude (s : Session) (c : Char) :
    Prelude s (s.scheduleSignatureHelp c) := by
  unfold scheduleSignatureHelp
  split
  · split
    · exact ⟨rfl, .one rfl rfl⟩
    · exact ⟨rfl, .of_eq rfl⟩
  · exact ⟨rfl, .of_eq rfl⟩

/-- What is asked for when typing goes on. -/
def respondToTyping (s : Session) (c : Char) : Session :=
  if s.bindings.isEmpty then s
  else if s.popup.visible then s.refreshVisible
  else s.scheduleLeading c

theorem charInserted_prelude (s : Session) (c : Char) :
    ∃ t, Prelude s t ∧ s.charInserted c = t.respondToTyping c := by
  unfold charInserted
  split
  next hb => exact ⟨s, ⟨rfl, .of_eq rfl⟩, by rw [respondToTyping, if_pos hb]⟩
  next hb =>
    extract_lets t
    have ht : Prelude s t := by
      dsimp only [t]
      split
      · exact scheduleSignatureHelp_prelude s c
      · exact ⟨rfl, .of_eq rfl⟩
    have hbindings : t.bindings = s.bindings := by rw [ht.frame]
    refine ⟨t, ht, ?_⟩
    rw [respondToTyping, hbindings, if_neg hb]

theorem keystroke_prelude (s : Session) {o : Operation} (ho : o.isKeystroke = true) :
    ∃ c t, Prelude s t ∧ (s.apply o).1 = t.respondToTyping c := by
  cases o with
  | typeChar c =>
    have hi : Prelude s (s.insertText [c]) := ⟨rfl, .one rfl rfl⟩
    obtain ⟨t, ht, h⟩ := (s.insertText [c]).charInserted_prelude c
    exact ⟨c, t, hi.trans ht, h⟩
  | charInserted c =>
    obtain ⟨t, ht, h⟩ := s.charInserted_prelude c
    exact ⟨c, t, ht, h⟩
  | _ => contradiction

theorem respondToTyping_visible {s : Session} (hv : s.popup.visible = true) (c : Char) :
    s.wantsRefresh = false ∧ s.respondToTyping c = s ∨
      s.wantsRefresh = true ∧ ∃ trigger, trigger.isRefresh = true ∧
        s.respondToTyping c = s.scheduleSubsequent trigger := by
  unfold respondToTyping wantsRefresh
  by_cases hb : s.bindings.isEmpty = true
  · left
    simp [hb]
  · rw [if_neg hb, if_pos hv]
    unfold refreshVisible
    by_cases hi : s.isIncomplete = true
    · right
      exact ⟨by simp [hb, hi], .incomplete, rfl, if_pos hi⟩
    · rw [if_neg hi]
      by_cases hf : s.bindings.values.any (·.fuzzy) = true
      · right
        exact ⟨by simp [hb, hf], .refresh, rfl, if_pos hf⟩
      · left
        exact ⟨by simp [hi, hf], if_neg hf⟩

theorem respondToTyping_hidden {s : Session} (hv : s.popup.visible = false) (c : Char) :
    s.respondToTyping c = s ∨
      s.respondToTyping c = s.log .trace "engine" "Leading debounce already armed" ∨
      s.completionTimer = none ∧
        ∃ delay, s.respondToTyping c = s.armCompletion delay (.character c) .leading := by
  unfold respondToTyping
  split
  · exact .inl rfl
  · rw [if_neg (by simp [hv])]
    unfold scheduleLeading
    split
    · exact .inl rfl
    next delay _ =>
      split
      · exact .inr (.inl rfl)
      next hn => exact .inr (.inr ⟨by simpa using hn, delay, rfl⟩)

/-- A round is asked for at once. -/
structure AsksAtOnce (s t : Session) : Prop where
  idle : t.completionTimer = none
  now : t.now = s.now
  asked : t.lastRequest = s.lastRequest ∧ t.refreshes = s.refreshes ∨ t.lastRequest = some s.now

theorem startRound_asksAtOnce (s : Session) (trigger : Trigger) :
    AsksAtOnce s (s.dropCompletionTimer.startRound trigger) := by
  have hg := s.dropCompletionTimer.giveUpRound_frame .newRequest
  have hu : Unasked s (s.dropCompletionTimer.giveUpRound .newRequest) :=
    (Adds.giveUpRound s.dropCompletionTimer .newRequest).unasked (by simp)
  unfold startRound
  generalize s.dropCompletionTimer.giveUpRound .newRequest = u at hg hu
  have hlast : u.lastRequest = s.lastRequest := by rw [hg]; rfl
  have hnow : u.now = s.now := by rw [hg]; rfl
  have hidle : u.completionTimer = none := by rw [hg]; rfl
  have hf := u.openRound_frame trigger
  constructor
  · rw [hf, hidle]
  · rw [hf, hnow]
  · rcases u.openRound_lastRequest trigger with ⟨hl, he⟩ | hl
    · have hr : (u.openRound trigger).refreshes = u.refreshes := by
        rw [Session.refreshes, he, Session.refreshes]
      exact .inl ⟨hl.trans hlast, hr.trans hu.refreshes_eq⟩
    · exact .inr (hl.trans (congrArg some hnow))

theorem startRound_sent (s : Session) (trigger : Trigger) : (s.startRound trigger).sent =
    s.sent ++ (s.bindings.values.filter (·.completes)).map fun b =>
      (b.server, .completion s.lastId.next) := by
  have hg := s.giveUpRound_frame .newRequest
  rw [startRound, openRound_sent, giveUpRound_sent, hg]

/-- What an action may do to the timer and to the time of the last request. -/
inductive PaceStep (s : Session) (a : Action) (t : Session) : Prop where
  | unhurried (h : Unhurried s t)
  | restart (ha : s.Restarts a) (idle : ∀ c, t.completionTimer = some c → ¬ c.IsRefresh)
      (refreshes : t.refreshes = s.refreshes)
      (asked : ∀ last, t.lastRequest = some last → last ≤ t.now)
  | scheduled {c : ScheduledCompletion} {last : Nat} (timer : t.completionTimer = some c)
      (phase : c.phase = .subsequent) (before : s.lastRequest = some last)
      (after : t.lastRequest = some last)
      (running : Duration.ofMilliseconds (s.now - last) < s.subsequentWindow)
      (due : c.timer.due = s.now + Duration.ceilMilliseconds
        (s.subsequentWindow - Duration.ofMilliseconds (s.now - last)))
      (refreshes : t.refreshes = s.refreshes) (now : t.now = s.now)
  | typed (hw : s.WindowOver) (h : AsksAtOnce s t)
  | fired {c : ScheduledCompletion} (timer : s.completionTimer = some c)
      (due : c.timer.due ≤ s.now) (kind : t.refreshes = s.refreshes ∨ c.trigger.isRefresh = true)
      (h : AsksAtOnce s t)

theorem Prelude.unhurried {s t : Session} (h : Prelude s t) : Unhurried s t :=
  .of_unasked h.unasked (by rw [h.frame])

theorem Prelude.paceStep {s t u : Session} {a : Action} (h : Prelude s t) (g : PaceStep t a u)
    (ha : ¬ t.Restarts a) : PaceStep s a u := by
  have hc : t.completionTimer = s.completionTimer := by rw [h.frame]
  have hl : t.lastRequest = s.lastRequest := by rw [h.frame]
  have hn : t.now = s.now := by rw [h.frame]
  have hw : t.subsequentWindow = s.subsequentWindow := by
    rw [h.frame]
    rfl
  have hr : t.refreshes = s.refreshes := h.unasked.refreshes_eq
  have hasks (g : AsksAtOnce t u) : AsksAtOnce s u := by
    refine ⟨g.idle, g.now.trans hn, ?_⟩
    rw [← hl, ← hr, ← hn]
    exact g.asked
  cases g with
  | unhurried g => exact .unhurried (h.unhurried.trans g)
  | restart hres => exact absurd hres ha
  | scheduled timer phase before after running due refreshes now =>
    rw [hn, hw] at running due
    exact .scheduled timer phase (hl ▸ before) after running due (refreshes.trans hr)
      (now.trans hn)
  | typed hover g =>
    rw [WindowOver, hl, hn, hw] at hover
    exact .typed hover (hasks g)
  | fired timer due kind g => exact .fired (hc ▸ timer) (hn ▸ due) (hr ▸ kind) (hasks g)

theorem scheduleSubsequent_paceStep (s : Session) (a : Action) (trigger : Trigger) :
    PaceStep s a (s.scheduleSubsequent trigger) := by
  by_cases hover : s.WindowOver
  · rw [scheduleSubsequent_over hover]
    exact .typed hover (startRound_asksAtOnce s trigger)
  · simp only [WindowOver, not_forall, Nat.not_le] at hover
    obtain ⟨last, hl, hrunning⟩ := hover
    rw [scheduleSubsequent_running hl hrunning]
    exact .scheduled rfl rfl hl hl hrunning rfl (Unasked.refreshes_eq (.one rfl rfl)) rfl

theorem respondToTyping_paceStep (s : Session) (a : Action) (c : Char) :
    PaceStep s a (s.respondToTyping c) := by
  cases hv : s.popup.visible with
  | true =>
    rcases respondToTyping_visible hv c with ⟨_, h⟩ | ⟨_, trigger, _, h⟩
    · rw [h]
      exact .unhurried (Unhurried.incidental.refl s)
    · rw [h]
      exact scheduleSubsequent_paceStep s a trigger
  | false =>
    apply PaceStep.unhurried
    rcases respondToTyping_hidden hv c with h | h | ⟨_, delay, h⟩
    · rw [h]
      exact Unhurried.incidental.refl s
    · rw [h]
      exact Unhurried.incidental.log ..
    · rw [h]
      exact .armCompletion s delay rfl

theorem keystroke_paceStep (s : Session) {o : DirectOperation} (ho : o.1.isKeystroke = true) :
    PaceStep s (.perform o) (s.apply o).1 := by
  obtain ⟨c, t, ht, h⟩ := s.keystroke_prelude ho
  rw [h]
  apply ht.paceStep (t.respondToTyping_paceStep (.perform o) c)
  intro hr
  obtain ⟨o, hd⟩ := o
  cases o with
  | typeChar => exact hr
  | charInserted => exact hr
  | _ => contradiction

/-- A reset leaves no timer and no time of a request. -/
theorem reset_lastRequest (s : Session) (reason : CancelReason) :
    (s.reset reason).lastRequest = none ∧ (s.reset reason).completionTimer = none ∧
      (s.reset reason).now = s.now ∧ (s.reset reason).refreshes = s.refreshes := by
  let t := s.dropCompletionTimer.dropSignatureTimer.cancelSignatureRound
  have ht : Unhurried s t := Unhurried.incidental.trans
    (Unhurried.incidental.trans (.dropCompletionTimer s)
      (Unhurried.incidental.dropSignatureTimer _))
    (Unhurried.incidental.cancelSignatureRound _)
  have hg := Unhurried.incidental.trans ht (Unhurried.incidental.giveUpRound t reason)
  have hn : (t.giveUpRound reason).completionTimer = none ∧ (t.giveUpRound reason).now = s.now := by
    rw [giveUpRound_frame]
    dsimp only [t]
    rw [cancelSignatureRound_frame]
    exact ⟨rfl, rfl⟩
  exact ⟨rfl, hn.1, hn.2, hg.refreshes⟩

theorem completeDone_paceStep (s : Session) (selection : Selection) :
    PaceStep s (.perform ⟨.completeDone selection, rfl⟩)
      (s.completeDone (s.selected? selection)) := by
  unfold completeDone
  cases hs : s.suppressDone with
  | true => exact .unhurried (.of_unasked (.one rfl rfl) rfl)
  | false =>
    rw [if_neg Bool.false_ne_true]
    split
    · obtain ⟨hl, hc, _, hr⟩ := s.reset_lastRequest .dismissed
      refine .restart hs ?_ hr ?_
      · intro c ht
        cases hc.symm.trans ht
      · intro last ht
        cases hl.symm.trans ht
    next m _ =>
      obtain ⟨hl, hc, hn, hr⟩ := s.reset_lastRequest .accepted
      have hu : Unhurried (s.reset .accepted) (s.acceptMatch m) :=
        Unhurried.incidental.accept (s.reset .accepted) s.expandSnippet m
      refine .restart hs ?_ (hu.refreshes.trans hr) ?_
      · intro c ht hrefresh
        obtain ⟨_, d, hd, _⟩ := hu.timer c ht hrefresh
        cases hc.symm.trans hd
      · intro last ht
        rcases hu.asked with h | ⟨_, h, _, hhigh⟩
        · cases hl.symm.trans (h.symm.trans ht)
        · obtain rfl := Option.some.inj (h.symm.trans ht)
          exact hhigh

/-- A timer that elapses is the one that is armed, and it is due. -/
theorem Timely.timerElapsed_paceStep {s : Session} (h : Timely s) {place serial : Nat}
    (hm : s.queue[place]? = some (.timer .completion serial))
    (hlive : s.isLive (.timer .completion serial) = true)
    (heq : s.deliver place =
      ({ s with queue := s.queue.eraseIdx place } : Session).completionTimerElapsed) :
    PaceStep s (.deliver place) (s.act (.deliver place)) := by
  let t : Session := { s with queue := s.queue.eraseIdx place }
  have hposts := mem_posts.mpr (List.mem_of_getElem? hm)
  obtain ⟨live, htoken⟩ := h.known .completion serial hposts
  have htrue : live = true := by simpa [isLive, htoken] using hlive
  obtain ⟨timer, harmed, hserial⟩ := (h.live_iff .completion serial).mp (htrue ▸ htoken)
  obtain ⟨c, hc, rfl⟩ := Option.map_eq_some_iff.mp harmed
  have hdue : c.timer.due ≤ s.now := by
    apply h.due .completion c.timer harmed
    exact h.posted .completion c.timer harmed (hserial ▸ hposts)
  have hfire : s.deliver place = t.dropCompletionTimer.startRound c.trigger := by
    have ht : t.completionTimer = some c := hc
    change s.deliver place = t.completionTimerElapsed at heq
    rw [heq, completionTimerElapsed, ht]
  have hasks := startRound_asksAtOnce t c.trigger
  change PaceStep s _ (s.deliver place)
  rw [hfire]
  refine .fired hc hdue ?_ ⟨hasks.idle, hasks.now, hasks.asked⟩
  cases ht : c.trigger.isRefresh with
  | true => exact .inr rfl
  | false =>
    left
    let u := t.dropCompletionTimer.giveUpRound .newRequest
    have hidle : u.completionTimer = none := by
      dsimp only [u]
      rw [giveUpRound_frame]
      rfl
    have hopen : Unhurried u (u.openRound c.trigger) := .openRound u hidle ht
    have hgiven : Unhurried t.dropCompletionTimer u := Unhurried.incidental.giveUpRound _ _
    exact hopen.refreshes.trans hgiven.refreshes

theorem Timely.paceStep {s : Session} (h : Timely s) (a : Action) : PaceStep s a (s.act a) := by
  have hR := Unhurried.incidental
  cases a with
  | perform o =>
    obtain ⟨o, hd⟩ := o
    cases o with
    | attach => exact .unhurried (.of_roundChange (.attach ..))
    | detach => exact .unhurried (.of_roundChange (.detach ..))
    | typeChar => exact s.keystroke_paceStep rfl
    | charInserted => exact s.keystroke_paceStep rfl
    | textDeleted => exact .unhurried (.textDeleted s)
    | cursorMoved => exact .unhurried (.cursorMoved s)
    | insertLeave =>
      obtain ⟨hl, hc, _, hr⟩ := s.reset_lastRequest .insertLeave
      refine .restart trivial ?_ hr ?_
      · intro c ht
        cases hc.symm.trans ht
      · intro last ht
        cases hl.symm.trans ht
    | completeDone selection => exact s.completeDone_paceStep selection
    | _ => exact .unhurried (hR.perform s ⟨_, hd⟩ rfl)
  | deliver place =>
    rcases hR.deliver s place with hu | hu | ⟨serial, hm, hlive, heq⟩
    · exact .unhurried hu
    · exact .unhurried (.of_roundChange hu)
    · exact h.timerElapsed_paceStep hm hlive heq

/-- What is known of the timer and the last request in all runs. -/
structure Regular (s : Session) : Prop where
  timely : Timely s
  phase : ∀ c, s.completionTimer = some c → c.trigger.isRefresh = true → c.phase = .subsequent
  asked : ∀ last, s.lastRequest = some last → last ≤ s.now

theorem Regular.act {s : Session} (h : Regular s) (a : Action) : Regular (s.act a) := by
  have ht : Timely (s.act a) :=
    after_induction (fun _ _ hc h => hc.timerStep.timely h) (fun _ _ hc h => hc.timerStep.timely h)
      (fun _ _ hc h => hc.timerStep.timely h) h.timely [a]
  have hasks (g : AsksAtOnce s (s.act a)) : Regular (s.act a) := by
    refine ⟨ht, ?_, ?_⟩
    · intro c hc
      cases g.idle.symm.trans hc
    · intro last hl
      rw [g.now]
      rcases g.asked with ⟨hs, _⟩ | hs
      · exact h.asked last (hs ▸ hl)
      · exact Nat.le_of_eq (Option.some.inj (hl.symm.trans hs))
  cases h.timely.paceStep a with
  | unhurried g =>
    refine ⟨ht, ?_, ?_⟩
    · intro c hc hr
      obtain ⟨_, d, hd, hphase, htrigger, _⟩ := g.timer c hc (.inr hr)
      rw [← hphase]
      exact h.phase d hd (htrigger ▸ hr)
    · intro last hl
      rcases g.asked with hs | ⟨_, hs, _, hhigh⟩
      · exact Nat.le_trans (h.asked last (hs ▸ hl)) g.now
      · obtain rfl := Option.some.inj (hs.symm.trans hl)
        exact hhigh
  | restart _ idle _ asked =>
    refine ⟨ht, ?_, asked⟩
    intro c hc hr
    exact absurd (.inr hr) (idle c hc)
  | scheduled timer phase before after _ _ _ now =>
    refine ⟨ht, ?_, ?_⟩
    · intro d hd _
      obtain rfl := Option.some.inj (timer.symm.trans hd)
      exact phase
    · intro last hl
      rw [now]
      exact h.asked last (before.trans (after.symm.trans hl))
  | typed _ g => exact hasks g
  | fired _ _ _ g => exact hasks g

theorem Regular.after {s : Session} (h : Regular s) (actions : List Action) :
    Regular (s.after actions) := by
  induction actions generalizing s with
  | nil => exact h
  | cons a actions ih => exact ih (h.act a)

theorem after_regular (setup : Setup) (actions : List Action) :
    Regular (setup.session.after actions) := by
  apply Regular.after
  refine ⟨timely_setup setup, ?_, ?_⟩
  · intro c hc
    cases hc
  · intro last hl
    cases hl

/-- Whatever happens while the window stays the same keeps the timer on schedule. -/
theorem Regular.onSchedule_act {s : Session} (h : Regular s) {W : Duration} (hs : s.OnSchedule W)
    (hw : s.subsequentWindow = W) (a : Action) : (s.act a).OnSchedule W := by
  intro c hc hphase
  cases h.timely.paceStep a with
  | unhurried g =>
    obtain ⟨hl, d, hd, hdphase, _, hdue⟩ := g.timer c hc (.inl hphase)
    obtain ⟨last, hlast, hsum⟩ := hs d hd (hdphase.trans hphase)
    exact ⟨last, hl.trans hlast, hdue.symm.trans hsum⟩
  | restart _ idle => exact absurd (.inl hphase) (idle c hc)
  | scheduled timer _ before after running due =>
    obtain rfl := Option.some.inj (timer.symm.trans hc)
    refine ⟨_, after, ?_⟩
    rw [due, ← hw]
    exact add_ceilMilliseconds_sub (h.asked _ before) (Nat.le_of_lt running)
  | typed _ g => cases g.idle.symm.trans hc
  | fired _ _ _ g => cases g.idle.symm.trans hc

theorem Regular.onSchedule {s : Session} (h : Regular s) {W : Duration} (hs : s.OnSchedule W)
    {actions : List Action} (hw : s.WindowStays W actions) : (s.after actions).OnSchedule W := by
  induction actions generalizing s with
  | nil => exact hs
  | cons a actions ih => exact ih (h.act a) (h.onSchedule_act hs hw.1 a) hw.2

theorem WindowStays.after {s : Session} {W : Duration} {actions : List Action}
    (h : s.WindowStays W actions) : (s.after actions).subsequentWindow = W := by
  induction actions generalizing s with
  | nil => exact h
  | cons a actions ih => exact ih h.2

/-- Since a request was made, nothing has forgotten it, though others may have been made. -/
def AskedSince (first : Nat) (s : Session) : Prop :=
  ∃ last, s.lastRequest = some last ∧ first ≤ last

theorem Regular.askedSince_act {s : Session} (h : Regular s) {first : Nat}
    (hs : s.AskedSince first) {a : Action} (ha : ¬ s.Restarts a) :
    (s.act a).AskedSince first := by
  obtain ⟨last, hlast, hfirst⟩ := hs
  have hnow := Nat.le_trans hfirst (h.asked last hlast)
  have hasks (g : AsksAtOnce s (s.act a)) : (s.act a).AskedSince first := by
    rcases g.asked with ⟨hl, _⟩ | hl
    · exact ⟨last, hl.trans hlast, hfirst⟩
    · exact ⟨s.now, hl, hnow⟩
  cases h.timely.paceStep a with
  | unhurried g =>
    rcases g.asked with hl | ⟨next, hl, hlow, _⟩
    · exact ⟨last, hl.trans hlast, hfirst⟩
    · exact ⟨next, hl, Nat.le_trans hnow hlow⟩
  | restart hres => exact absurd hres ha
  | scheduled _ _ before after =>
    obtain rfl := Option.some.inj (before.symm.trans hlast)
    exact ⟨_, after, hfirst⟩
  | typed _ g => exact hasks g
  | fired _ _ _ g => exact hasks g

theorem Regular.askedSince {s : Session} (h : Regular s) {first : Nat} (hs : s.AskedSince first)
    {actions : List Action} (hu : s.Unbroken actions) : (s.after actions).AskedSince first := by
  induction actions generalizing s with
  | nil => exact hs
  | cons a actions ih => exact ih (h.act a) (h.askedSince_act hs hu.1) hu.2

/-- A refresh leaves no timer, and its time is that of the last request. -/
theorem Regular.refresh_asks {s : Session} (h : Regular s) {a : Action}
    (hr : (s.act a).refreshes ≠ s.refreshes) :
    (s.act a).completionTimer = none ∧ (s.act a).lastRequest = some s.now := by
  have hasks (g : AsksAtOnce s (s.act a)) :
      (s.act a).completionTimer = none ∧ (s.act a).lastRequest = some s.now := by
    refine ⟨g.idle, ?_⟩
    rcases g.asked with ⟨_, he⟩ | hl
    · exact absurd he hr
    · exact hl
  cases h.timely.paceStep a with
  | unhurried g => exact absurd g.refreshes hr
  | restart _ _ refreshes => exact absurd refreshes hr
  | scheduled _ _ _ _ _ _ refreshes => exact absurd refreshes hr
  | typed _ g => exact hasks g
  | fired _ _ _ g => exact hasks g

/-- Nothing is refreshed before a window has passed since the last request. -/
theorem Regular.refresh_late {s : Session} (h : Regular s) {a : Action}
    (hr : (s.act a).refreshes ≠ s.refreshes) (hs : s.OnSchedule s.subsequentWindow) {last : Nat}
    (hl : s.lastRequest = some last) :
    Duration.ofMilliseconds last + s.subsequentWindow ≤ Duration.ofMilliseconds s.now := by
  cases h.timely.paceStep a with
  | unhurried g => exact absurd g.refreshes hr
  | restart _ _ refreshes => exact absurd refreshes hr
  | scheduled _ _ _ _ _ _ refreshes => exact absurd refreshes hr
  | typed hover _ => exact (le_ofMilliseconds_sub_iff (h.asked last hl)).mp (hover last hl)
  | fired timer due kind _ =>
    have hphase := h.phase _ timer (kind.resolve_left hr)
    obtain ⟨first, hfirst, hsum⟩ := hs _ timer hphase
    obtain rfl := Option.some.inj (hfirst.symm.trans hl)
    have hceil := le_ofMilliseconds_ceil s.subsequentWindow
    have hmul (w first now ceil : Nat) (hw : w ≤ ceil * 1000000) (hn : first + ceil ≤ now) :
        first * 1000000 + w ≤ now * 1000000 := by omega
    exact hmul _ _ _ _ hceil (hsum ▸ due)

theorem keystroke_paces {s : Session} (h : Regular s) {o : DirectOperation}
    (ho : o.1.isKeystroke = true) (hv : s.popup.visible = true) {last : Nat}
    (hl : s.lastRequest = some last) : Paces last s (s.apply o).1 := by
  obtain ⟨c, t, ht, heq⟩ := s.keystroke_prelude ho
  have hf := ht.frame
  have htv : t.popup.visible = true := by rw [hf]; exact hv
  have htl : t.lastRequest = some last := by rw [hf]; exact hl
  have hwants : t.wantsRefresh = s.wantsRefresh := by rw [hf]; rfl
  have hwindow : t.subsequentWindow = s.subsequentWindow := by rw [hf]; rfl
  have htimer : t.completionTimer = s.completionTimer := by rw [hf]
  have hsent : t.sent = s.sent := sent_eq (by rw [hf])
  have hnow : t.now = s.now := by rw [hf]
  have hlast := h.asked last hl
  rw [heq]
  rcases respondToTyping_visible htv c with ⟨hno, hr⟩ | ⟨hyes, trigger, _, hr⟩
  · rw [hr]
    exact .unwanted (hwants ▸ hno) htimer hsent
  · rw [hr]
    by_cases hlate : t.subsequentWindow ≤ Duration.ofMilliseconds (t.now - last)
    · have hover : t.WindowOver := by
        intro first hfirst
        obtain rfl := Option.some.inj (htl.symm.trans hfirst)
        exact hlate
      rw [scheduleSubsequent_over hover]
      have hall := startRound_sent t.dropCompletionTimer trigger
      have hbindings : t.bindings = s.bindings := by rw [hf]
      have hid : t.lastId = s.lastId := by rw [hf]
      change _ = t.sent ++ (t.bindings.values.filter (·.completes)).map (fun b =>
        (b.server, Purpose.completion t.lastId.next)) at hall
      rw [hsent, hbindings, hid] at hall
      rw [hwindow, hnow, le_ofMilliseconds_sub_iff hlast] at hlate
      exact .atOnce (hwants ▸ hyes) hlate (startRound_asksAtOnce t trigger).idle hall
    · have hrunning := Nat.lt_of_not_le hlate
      rw [scheduleSubsequent_running htl hrunning]
      rw [hwindow, hnow, le_ofMilliseconds_sub_iff hlast] at hlate
      refine .later (hwants ▸ hyes) (Nat.lt_of_not_le hlate) ⟨_, rfl, rfl, ?_⟩ hsent
      rw [← hwindow]
      exact add_ceilMilliseconds_sub (hnow ▸ hlast) (Nat.le_of_lt hrunning)

theorem outside_keeps {s : Session} {c : ScheduledCompletion} (hc : s.completionTimer = some c)
    {o : DirectOperation} (ho : o.1.isOutside = true) : (s.apply o).1.sent = s.sent ∧
      ∃ posted, (s.apply o).1.completionTimer =
        some { c with timer := { c.timer with posted } } := by
  have keeps {t : Session} (ht : t.completionTimer = s.completionTimer) (hs : t.sent = s.sent) :
      t.sent = s.sent ∧
        ∃ posted, t.completionTimer = some { c with timer := { c.timer with posted } } :=
    ⟨hs, c.timer.posted, ht.trans hc⟩
  obtain ⟨o, hd⟩ := o
  cases o with
  | backspace =>
    have hb : s.backspace.completionTimer = s.completionTimer ∧ s.backspace.sent = s.sent := by
      unfold backspace
      dsimp only
      split
      · exact ⟨rfl, rfl⟩
      · exact ⟨rfl, rfl⟩
    exact keeps hb.1 hb.2
  | respond target reply =>
    have hr : (s.respond target reply).1.completionTimer = s.completionTimer ∧
        (s.respond target reply).1.sent = s.sent := by
      unfold respond
      split
      · exact ⟨by rw [answer_frame], answer_sent ..⟩
      · exact ⟨rfl, rfl⟩
    exact keeps hr.1 hr.2
  | elapse ms =>
    have ht : (s.elapse ms).completionTimer =
        some { c with timer := ({ s with now := s.now + ms } : Session).markPosted c.timer } := by
      change s.completionTimer.map _ = _
      rw [hc]
      rfl
    refine ⟨rfl, ?_⟩
    change ∃ posted, (s.elapse ms).completionTimer = _
    rw [ht]
    unfold markPosted
    split
    · exact ⟨true, rfl⟩
    · exact ⟨c.timer.posted, rfl⟩
  | insertText => exact keeps rfl rfl
  | setCursor => exact keeps rfl rfl
  | setInserting => exact keeps rfl rfl
  | setVisible => exact keeps rfl rfl
  | setAvailable => exact keeps rfl rfl
  | registerGlobal => exact keeps rfl rfl
  | unregisterGlobal => exact keeps rfl rfl
  | answerAlways => exact keeps rfl rfl
  | _ => contradiction

/-- A timer that is armed while the popup is hidden is not armed again. -/
theorem typing_keeps {s : Session} {c : ScheduledCompletion} (hv : s.popup.visible = false)
    (hc : s.completionTimer = some c) {o : DirectOperation} (ho : o.1.isTyping = true) :
    (s.apply o).1.popup.visible = false ∧ (s.apply o).1.sent = s.sent ∧
      ∃ posted, (s.apply o).1.completionTimer =
        some { c with timer := { c.timer with posted } } := by
  by_cases hk : o.1.isKeystroke = true
  · obtain ⟨char, t, ht, heq⟩ := s.keystroke_prelude hk
    have hf := ht.frame
    have htv : t.popup.visible = false := by rw [hf]; exact hv
    have htc : t.completionTimer = some c := by rw [hf]; exact hc
    have hts : t.sent = s.sent := sent_eq (by rw [hf])
    rw [heq]
    rcases respondToTyping_hidden htv char with h | h | ⟨hn, _⟩
    · rw [h]
      exact ⟨htv, hts, c.timer.posted, htc⟩
    · rw [h]
      exact ⟨htv, hts, c.timer.posted, htc⟩
    · cases hn.symm.trans htc
  · have hout : o.1.isOutside = true := by
      obtain ⟨o, hd⟩ := o
      cases o <;> simp_all [Operation.isTyping, Operation.isKeystroke, Operation.isOutside]
    refine ⟨?_, outside_keeps hc hout⟩
    obtain ⟨o, hd⟩ := o
    cases o with
    | backspace =>
      change s.backspace.popup.visible = false
      unfold backspace
      dsimp only
      split
      · exact hv
      · exact hv
    | respond target reply =>
      change (s.respond target reply).1.popup.visible = false
      unfold respond
      split
      · dsimp only
        rw [answer_frame]
        exact hv
      · exact hv
    | setVisible visible =>
      change visible = false
      simpa [Operation.isTyping] using ho
    | _ => first
      | exact hv
      | contradiction

theorem typing_keeps_after {s : Session} {c : ScheduledCompletion} (hv : s.popup.visible = false)
    (hc : s.completionTimer = some c) {actions : List Action}
    (ha : ∀ a ∈ actions, a.isTyping = true) : (s.after actions).sent = s.sent ∧
      ∃ posted, (s.after actions).completionTimer =
        some { c with timer := { c.timer with posted } } := by
  induction actions generalizing s c with
  | nil => exact ⟨rfl, c.timer.posted, hc⟩
  | cons a actions ih =>
    have hfirst := ha a List.mem_cons_self
    cases a with
    | deliver => cases hfirst
    | perform o =>
      obtain ⟨htv, hts, posted, htc⟩ := typing_keeps hv hc hfirst
      obtain ⟨hus, later, huc⟩ := ih htv htc fun b hb => ha b (List.mem_cons_of_mem _ hb)
      exact ⟨hus.trans hts, later, huc⟩

/-- Typing neither postpones nor multiplies a request. While the popup is visible and the window stays
the same, an armed timer is due when the window since the last request has passed, a keystroke asks at
once if it has and arms the timer if not, and between two refreshes, if nothing puts the session back,
there is at least a window. While the popup is hidden, a timer that is armed stays as it is. -/
theorem requests_keepPace (setup : Setup) (past : List Action) :
    let s := setup.session.after past
    (∀ (W : Duration) (later : List Action), s.OnSchedule W → s.WindowStays W later →
      (s.after later).OnSchedule W) ∧
    (∀ (o : DirectOperation) (last : Nat), o.1.isKeystroke = true → s.popup.visible = true →
      s.lastRequest = some last → Paces last s (s.apply o).1) ∧
    (∀ (a b : Action) (between : List Action) (W : Duration),
      let t := s.act a
      let u := t.after between
      t.refreshes ≠ s.refreshes → (u.act b).refreshes ≠ u.refreshes →
      t.Unbroken between → t.WindowStays W between →
      Duration.ofMilliseconds s.now + W ≤ Duration.ofMilliseconds u.now) ∧
    ∀ (c : ScheduledCompletion) (typing : List Action), s.popup.visible = false →
      s.completionTimer = some c → (∀ a ∈ typing, a.isTyping = true) →
      (s.after typing).sent = s.sent ∧ ∃ posted, (s.after typing).completionTimer =
        some { c with timer := { c.timer with posted } } := by
  intro s
  have h : Regular s := after_regular setup past
  refine ⟨?_, ?_, ?_, ?_⟩
  · intro W later hs hw
    exact h.onSchedule hs hw
  · intro o last ho hv hl
    exact keystroke_paces h ho hv hl
  · intro a b between W t u hfirst hsecond hunbroken hw
    obtain ⟨hidle, hlast⟩ := h.refresh_asks hfirst
    have ht : Regular t := h.act a
    have hu : Regular u := ht.after between
    have hschedule : t.OnSchedule W := by
      intro c hc
      cases hidle.symm.trans hc
    have hwindow : u.subsequentWindow = W := hw.after
    obtain ⟨last, hl, hle⟩ := ht.askedSince ⟨s.now, hlast, Nat.le_refl _⟩ hunbroken
    have hlate := hu.refresh_late hsecond (hwindow ▸ ht.onSchedule hschedule hw) hl
    rw [hwindow] at hlate
    exact Nat.le_trans (Nat.add_le_add_right (Nat.mul_le_mul_right _ hle) W) hlate
  · intro c typing hv hc hall
    exact typing_keeps_after hv hc hall

/-- A server that filters by itself, with a window of 50 ms. In the first run the user asks for results
and the popup is visible 60 ms later; in the second one a trigger character is typed. -/
def typedOn : Setup × List Action × List Action :=
  ({ config := { fuzzy := true, subsequentMs := some 50 }, uri := "file:///a", lines := [[]],
     cursor := ⟨0, 0⟩, missing := [], signatureView := false, snippets := [],
     matcher := ⟨fun _ _ => true⟩, commands := none, cancellable := true },
   [.attach ⟨1⟩ { completion := some {} } {}, .triggerCompletion, .setVisible true, .elapse 60],
   [.attach ⟨1⟩ { completion := some { triggerCharacters := ["."] } } {}, .typeChar '.'])

/-- The first keystroke asks at once, at 60 ms; the timer that the second one arms is due at 110 ms,
when it asks again. The timer of the other run stays as the trigger character armed it. -/
theorem requests_keepPace_typedOn :
    let type : Char → Action := .typeChar
    let between : List Action := [type 'b', .elapse 50]
    let W : Duration := .ofMilliseconds 50
    let s := typedOn.1.session.after typedOn.2.1
    let t := s.act (type 'a')
    let u := t.after between
    let v := typedOn.1.session.after typedOn.2.2
    (s.after (type 'a' :: between)).OnSchedule W ∧ Paces 0 s t ∧ t.sent.length = 2 ∧
      u.completionTimer.map (·.timer.due) = some 110 ∧
      (u.act (.deliver 0)).refreshes = [⟨2⟩, ⟨3⟩] ∧
      Duration.ofMilliseconds 60 + W ≤ Duration.ofMilliseconds 110 ∧
      (v.after [type 'a', type '.']).sent = v.sent := by
  intro type between W s t u v
  obtain ⟨hschedule, hpaces, hapart, _⟩ := requests_keepPace typedOn.1 typedOn.2.1
  obtain ⟨_, _, _, hstays⟩ := requests_keepPace typedOn.1 typedOn.2.2
  have hidle : s.OnSchedule W := by
    intro c hc
    cases (show s.completionTimer = none from rfl).symm.trans hc
  have hwindow : s.WindowStays W (type 'a' :: between) := by
    refine ⟨by decide +kernel, by decide +kernel, by decide +kernel, ?_⟩
    change subsequentWindow _ = W
    decide +kernel
  have hfirst : t.refreshes ≠ s.refreshes := by decide +kernel
  have hsecond : (u.act (.deliver 0)).refreshes ≠ u.refreshes := by decide +kernel
  have hpace : Paces 0 s t :=
    hpaces ⟨.typeChar 'a', rfl⟩ 0 rfl (by decide +kernel) (by decide +kernel)
  have hbetween : Duration.ofMilliseconds s.now + W ≤ Duration.ofMilliseconds u.now :=
    hapart (type 'a') (.deliver 0) between W hfirst hsecond ⟨id, id, trivial⟩ hwindow.2
  rw [show s.now = 60 by decide +kernel, show u.now = 110 by decide +kernel] at hbetween
  have hsent : (v.after [type 'a', type '.']).sent = v.sent := by
    obtain ⟨c, hc⟩ : ∃ c, v.completionTimer = some c :=
      Option.isSome_iff_exists.mp (by decide +kernel)
    refine (hstays c [type 'a', type '.'] (by decide +kernel) hc ?_).1
    intro a ha
    simp only [List.mem_cons, List.not_mem_nil, or_false] at ha
    rcases ha with rfl | rfl <;> rfl
  exact ⟨hschedule W _ hidle hwindow, hpace, by decide +kernel, by decide +kernel,
    by decide +kernel, hbetween, hsent⟩

end Session
end Autocomplete

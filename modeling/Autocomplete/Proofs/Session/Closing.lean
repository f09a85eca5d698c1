import Autocomplete.Proofs.Session.Aside
import Autocomplete.Proofs.Session.Shown
import Mathlib.Data.List.Induction

/-! A popup that is replaced while it is visible closes, and the editor reports that some time
later, which is not the user's doing. Such a report is passed over, but only one: the session does
not count the popups that were replaced. -/
namespace Autocomplete

namespace Action

/-- The popup is reported closed. -/
def closes : Action → Bool
  | .perform ⟨.completeDone _, _⟩ => true
  | _ => false

/-- The user stops typing into the buffer. -/
def leaves : Action → Bool
  | .perform ⟨.insertLeave, _⟩ => true
  | _ => false

end Action

namespace Session
open Observation

/-- How often results were shown. -/
def shows (s : Session) : Nat := s.trace.countP (·.kind = .shown)

/-- New results are shown while the popup is visible. -/
def replaces (s : Session) (a : Action) : Bool :=
  s.popup.visible && decide (s.shows < (s.act a).shows)

theorem Adds.shows_eq {kinds : List Kind} {s t : Session} (h : Adds kinds s t)
    (hk : Kind.shown ∉ kinds) : t.shows = s.shows := by
  obtain ⟨obs, ht, ho⟩ := h
  have hn : obs.countP (fun o => decide (o.kind = .shown)) = 0 := by
    refine List.countP_eq_zero.mpr fun o hm => ?_
    simp only [decide_eq_true_eq]
    intro he
    exact hk (he ▸ ho o hm)
  rw [shows, ht, List.countP_append, hn, Nat.add_zero, shows]

/-- The next report is to be passed over if the popup was visible when results were shown. -/
def Replaced (s t : Session) : Prop :=
  t.suppressDone = (s.suppressDone || (s.popup.visible && decide (s.shows < t.shows)))

theorem Replaced.of_eq {s t : Session} (hs : t.shows = s.shows)
    (hd : t.suppressDone = s.suppressDone) : Replaced s t := by simp [Replaced, hs, hd]

theorem Replaced.of_after {s t u : Session} (h : Replaced t u) (hs : t.shows = s.shows)
    (hd : t.suppressDone = s.suppressDone) (hv : t.popup.visible = s.popup.visible) :
    Replaced s u := by
  rw [Replaced, ← hd, ← hv, ← hs]
  exact h

theorem present_replaced (s : Session) (c : Round) (merged : Merged) (roundTrip : Duration) :
    Replaced s (s.present c merged roundTrip) := by
  have hs : (s.present c merged roundTrip).shows = s.shows + 1 := by
    unfold present
    extract_lets count t u v w
    have hu : u.shows = s.shows := (Adds.log t ..).shows_eq (by simp)
    have hv : w.shows = u.shows + 1 := List.countP_append
    have hw : Adds [.plain] w (w.emit (.resultsShown c.id merged.startColumn count
        merged.isIncomplete roundTrip.milliseconds)) := Adds.emit w _ (by simp [kind])
    exact (hw.shows_eq (by simp)).trans (by rw [hv, hu])
  rw [Replaced, hs]
  simp [present, log, call, emit, Bool.or_comm]

theorem finishRound_replaced (s : Session) (c : Round) : Replaced s (s.finishRound c) := by
  unfold finishRound
  extract_lets t about merged roundTrip u v w x
  split
  · exact .of_eq ((Adds.log t ..).shows_eq (by simp)) rfl
  · split
    · exact .of_eq ((Adds.log t ..).shows_eq (by simp)) rfl
    · have hw := reportFailures_frame c.id merged.errors v
      have hu : u.shows = s.shows := (Adds.logAll t _).shows_eq (by simp)
      have hx : x.shows = s.shows :=
        ((Adds.reportFailures c.id merged.errors v).shows_eq (by simp)).trans hu
      have hd : x.suppressDone = s.suppressDone := (congrArg Session.suppressDone hw :)
      have hv : x.popup.visible = s.popup.visible := (congrArg (·.popup.visible) hw :)
      split
      · exact .of_eq (((Adds.log x ..).shows_eq (by simp)).trans hx) hd
      · exact (present_replaced x c merged roundTrip).of_after hx hd hv

theorem detachFromRound_replaced (s : Session) (server : ServerId) :
    Replaced s (s.detachFromRound server) := by
  unfold detachFromRound
  split
  next => exact .of_eq rfl rfl
  next c _ =>
    extract_lets t
    have hf := s.dropServer_frame c server
    have ht : t.shows = s.shows := (Adds.dropServer s c server).shows_eq (by simp)
    have hd : t.suppressDone = s.suppressDone := (congrArg Session.suppressDone hf :)
    have hv : t.popup.visible = s.popup.visible := (congrArg (·.popup.visible) hf :)
    split
    · exact .of_eq ht hd
    · split
      · exact .of_eq ht hd
      · split
        · have he : Adds [.givenUp] t _ :=
            Adds.emit { t with round := none } (.cancelled c.id .detached) (by simp [kind])
          exact .of_eq ((he.shows_eq (by simp)).trans ht) hd
        · exact (finishRound_replaced t _).of_after ht hd hv

theorem detach_replaced (s : Session) (server : ServerId) : Replaced s (s.detach server) := by
  unfold detach
  split
  · extract_lets t
    have hf := t.detachFromSignature_frame server
    have ht : t.shows = s.shows :=
      Adds.shows_eq (Adds.one rfl (List.mem_singleton_self _)) (by simp [kind])
    have hs := (Adds.detachFromSignature t server).shows_eq (by simp)
    have hd : (t.detachFromSignature server).suppressDone = s.suppressDone := by rw [hf]; rfl
    have hv : (t.detachFromSignature server).popup.visible = s.popup.visible := by rw [hf]; rfl
    exact (detachFromRound_replaced _ server).of_after (hs.trans ht) hd hv
  · exact .of_eq rfl rfl

theorem closeRound_replaced (s : Session) : Replaced s s.closeRound := by
  unfold closeRound
  split
  · split
    · exact finishRound_replaced s _
    · exact .of_eq rfl rfl
  · exact .of_eq rfl rfl

theorem takeCompletion_replaced (s : Session) (id : RequestId) (server : ServerId) (reply : Reply) :
    Replaced s (s.takeCompletion id server reply) := by
  unfold takeCompletion
  split
  next c _ =>
    split
    · have hf := s.recordReply_frame c server reply
      have hs := (Adds.recordReply s c server reply).shows_eq (by simp)
      exact (closeRound_replaced _).of_after hs (by rw [hf]) (by rw [hf])
    · exact .of_eq rfl rfl
  next => exact .of_eq rfl rfl

theorem RoundChange.replaced {s t : Session} (h : RoundChange s t) : Replaced s t := by
  cases h with
  | attach server capabilities options =>
    have hf := s.attach_frame server capabilities options
    exact .of_eq ((Adds.attach s server capabilities options).shows_eq (by simp)) (by rw [hf])
  | detach server => exact detach_replaced s server
  | takeCompletion place n server id reply =>
    have ht := takeCompletion_replaced { s with queue := s.queue.eraseIdx place } id server reply
    exact ht.of_after rfl rfl rfl

/-- Closing the popup and leaving insertion show nothing. -/
theorem replaces_of_evolves {s : Session} {a : Action} (h : Evolves s (s.act a)) :
    s.replaces a = false := by
  rw [replaces, h.adds.shows_eq (by simp)]
  simp

theorem textDeleted_done (s : Session) : s.textDeleted.suppressDone = s.suppressDone := by
  unfold textDeleted
  split
  · rfl
  · extract_lets cursor qualifies
    split
    · rfl
    · rfl

theorem cursorMoved_done (s : Session) : s.cursorMoved.suppressDone = s.suppressDone := by
  unfold cursorMoved
  split
  · split
    · rfl
    · rfl
  · rfl

theorem act_replaced (s : Session) {a : Action} (hc : a.closes = false) (hl : a.leaves = false) :
    Replaced s (s.act a) := by
  have aside (h : (s.act a).suppressDone = s.suppressDone) : Replaced s (s.act a) := by
    rcases s.act_cases a with he | hr
    · exact .of_eq (he.adds.shows_eq (by simp)) h
    · exact hr.replaced
  cases a with
  | perform o =>
    rcases perform_aside s o with h | h | ho | ho | ho | ⟨selection, ho⟩
    · exact aside h.done
    · exact h.replaced
    all_goals
      obtain ⟨_, _⟩ := o
      subst ho
    · exact aside s.textDeleted_done
    · exact aside s.cursorMoved_done
    · cases hl
    · cases hc
  | deliver place =>
    rcases deliver_aside s place with h | h | ⟨_, _, _, _, _, _, h⟩
    · exact aside h.done
    · exact h.replaced
    · refine aside ?_
      change (s.deliver place).suppressDone = _
      rw [h, startRound, openRound_frame, giveUpRound_frame]
      rfl

theorem completeDone_done (s : Session) (selected : Option Match) :
    (s.completeDone selected).suppressDone = false := by
  unfold completeDone
  split
  · rfl
  · split
    · rfl
    next m => exact (Aside.incidental.accept (s.reset .accepted) s.expandSnippet m).done

theorem ending_cases (s : Session) {a : Action} (h : (a.closes || a.leaves) = true) :
    (s.act a).suppressDone = false ∧ Evolves s (s.act a) := by
  cases a with
  | deliver => cases h
  | perform o =>
    obtain ⟨o, ho⟩ := o
    cases o with
    | insertLeave => exact ⟨rfl, (reset_quiet s _).evolves⟩
    | completeDone selection =>
      exact ⟨s.completeDone_done (s.selected? selection), completeDone_evolves s _⟩
    | _ => cases h

theorem replaces_of_ending {s : Session} {a : Action} (h : (a.closes || a.leaves) = true) :
    s.replaces a = false := replaces_of_evolves (s.ending_cases h).2

/-- Of all actions only those that replace the popup set the flag, and only closing the popup and
leaving insertion clear it. -/
theorem act_suppressDone (s : Session) (a : Action) :
    (s.act a).suppressDone = (s.replaces a || (!(a.closes || a.leaves) && s.suppressDone)) := by
  by_cases h : (a.closes || a.leaves) = true
  · rw [(s.ending_cases h).1, replaces_of_ending h, h]
    rfl
  · obtain ⟨hc, hl⟩ : a.closes = false ∧ a.leaves = false := by simpa using h
    rw [s.act_replaced hc hl, hc, hl, replaces]
    exact Bool.or_comm ..

/-- The flag is set exactly if a popup was replaced since the last report and since insertion was
left last. -/
theorem suppressDone_iff (setup : Setup) (past : List Action) :
    (setup.session.after past).suppressDone = true ↔
      ∃ before a since, past = before ++ a :: since ∧
        (setup.session.after before).replaces a = true ∧
        ∀ x ∈ since, (x.closes || x.leaves) = false := by
  induction past using List.reverseRecOn with
  | nil => simp [after, Setup.session, log]
  | append_singleton past a ih =>
    rw [after_concat, act_suppressDone]
    constructor
    · intro h
      rcases Bool.or_eq_true_iff.mp h with h | h
      · exact ⟨past, a, [], rfl, h, by simp⟩
      · obtain ⟨hn, hs⟩ : (a.closes || a.leaves) = false ∧ _ = true := by simpa using h
        obtain ⟨before, b, since, rfl, hb, hsince⟩ := ih.mp hs
        refine ⟨before, b, since ++ [a], by simp, hb, ?_⟩
        intro x hx
        rcases List.mem_append.mp hx with hx | hx
        · exact hsince x hx
        · rw [List.mem_singleton.mp hx, hn]
    · rintro ⟨before, b, since, hpast, hb, hsince⟩
      rcases since.eq_nil_or_concat with rfl | ⟨rest, x, rfl⟩
      · obtain ⟨rfl, rfl⟩ : past = before ∧ a = b := by simpa using hpast
        rw [hb]
        rfl
      · rw [List.concat_eq_append] at hpast hsince
        have happend : past ++ [a] = (before ++ b :: rest) ++ [x] := by simp [hpast]
        obtain ⟨rfl, hx⟩ := List.append_inj' happend rfl
        obtain rfl := List.singleton_inj.mp hx
        have hs := ih.mpr ⟨before, b, rest, rfl, hb, fun y hy => hsince y (by simp [hy])⟩
        rw [hs, hsince a (by simp)]
        simp

/-- How many reports are still to come after an action, of which it may be one. -/
def owedAfter (s : Session) (owed : Nat) (a : Action) (report : Bool) : Nat :=
  owed + (s.replaces a).toNat - report.toNat

/-- For each popup that is replaced the editor reports once, at any time after, that it closed. The
actions that are these reports are marked. -/
def Reported : Nat → Session → List (Action × Bool) → Prop
  | owed, _, [] => owed = 0
  | owed, s, (a, report) :: rest =>
    (report = true → a.closes = true ∧ 0 < owed) ∧
      Reported (s.owedAfter owed a report) (s.act a) rest

/-- While a report is still to come, no other popup is replaced or reported closed, and the user
does not leave insertion. -/
def Prompt : Nat → Session → List (Action × Bool) → Prop
  | _, _, [] => True
  | owed, s, (a, report) :: rest =>
    (s.replaces a = true ∨ a.leaves = true ∨ a.closes = true ∧ report = false → owed = 0) ∧
      Prompt (s.owedAfter owed a report) (s.act a) rest

instance decidableReported : ∀ owed s steps, Decidable (Reported owed s steps)
  | _, _, [] => inferInstanceAs (Decidable (_ = _))
  | owed, s, (a, report) :: rest =>
    have := decidableReported (s.owedAfter owed a report) (s.act a) rest
    inferInstanceAs (Decidable (_ ∧ _))

instance decidablePrompt : ∀ owed s steps, Decidable (Prompt owed s steps)
  | _, _, [] => inferInstanceAs (Decidable True)
  | owed, s, (a, report) :: rest =>
    have := decidablePrompt (s.owedAfter owed a report) (s.act a) rest
    inferInstanceAs (Decidable (_ ∧ _))

/-- What is passed over are exactly the reports of popups that were replaced. -/
def OneForOne : Session → List (Action × Bool) → Prop
  | _, [] => True
  | s, (a, report) :: rest =>
    (a.closes = true → (s.suppressDone = true ↔ report = true)) ∧ OneForOne (s.act a) rest

/-- What a step of such a run does to the flag and to the reports that are still to come. -/
inductive MarkedStep (s : Session) (a : Action) (report : Bool) : Prop where
  | replaces (hr : s.replaces a = true) (hc : a.closes = false)
      (flag : (s.act a).suppressDone = true) (owed : ∀ n, s.owedAfter n a report = n + 1)
  | reports (hm : report = true) (hr : s.replaces a = false) (hl : a.leaves = false)
      (flag : (s.act a).suppressDone = false) (owed : ∀ n, s.owedAfter n a report = n - 1)
  | ends (hm : report = false) (he : a.leaves = true ∨ a.closes = true)
      (flag : (s.act a).suppressDone = false) (owed : ∀ n, s.owedAfter n a report = n)
  | other (hr : s.replaces a = false) (hc : a.closes = false) (hl : a.leaves = false)
      (flag : (s.act a).suppressDone = s.suppressDone) (owed : ∀ n, s.owedAfter n a report = n)

theorem markedStep (s : Session) {a : Action} {report : Bool}
    (h : report = true → a.closes = true) : MarkedStep s a report := by
  have hflag := s.act_suppressDone a
  have hends : (a.closes || a.leaves) = true → s.replaces a = false := replaces_of_ending
  have howed (n : Nat) : s.owedAfter n a report = n + (s.replaces a).toNat - report.toNat := rfl
  cases hc : a.closes with
  | true =>
    have hr : s.replaces a = false := hends (by simp [hc])
    rw [hr, hc] at hflag
    simp only [hr] at howed
    cases report with
    | true =>
      refine .reports rfl hr ?_ hflag howed
      cases a with
      | deliver => rfl
      | perform o =>
        obtain ⟨o, ho⟩ := o
        cases o <;> first | rfl | cases hc
    | false => exact .ends rfl (.inr hc) hflag howed
  | false =>
    obtain rfl : report = false := by
      cases report with
      | false => rfl
      | true => exact absurd (h rfl) (by simp [hc])
    cases hl : a.leaves with
    | true =>
      have hr : s.replaces a = false := hends (by simp [hl])
      rw [hr, hc, hl] at hflag
      simp only [hr] at howed
      exact .ends rfl (.inl hl) hflag howed
    | false =>
      cases hr : s.replaces a with
      | true =>
        rw [hr] at hflag
        simp only [hr] at howed
        exact .replaces hr hc hflag howed
      | false =>
        rw [hr, hc, hl] at hflag
        simp only [hr] at howed
        exact .other hr hc hl hflag howed

/-- While reports come promptly, the flag counts them. -/
theorem Prompt.oneForOne {steps : List (Action × Bool)} {owed : Nat} {s : Session}
    (hp : Prompt owed s steps) (hr : Reported owed s steps) (hs : s.suppressDone.toNat = owed) :
    OneForOne s steps := by
  induction steps generalizing owed s with
  | nil => trivial
  | cons step rest ih =>
    obtain ⟨a, report⟩ := step
    obtain ⟨hprompt, hprest⟩ := hp
    obtain ⟨hreport, hrrest⟩ := hr
    have hle := Bool.toNat_le s.suppressDone
    have hsum : (a.closes = true → (s.suppressDone = true ↔ report = true)) ∧
        (s.act a).suppressDone.toNat = s.owedAfter owed a report := by
      cases markedStep s fun hm => (hreport hm).1 with
      | replaces hra hc flag howed =>
        have hzero := hprompt (.inl hra)
        rw [flag, howed, hzero, hc]
        exact ⟨nofun, rfl⟩
      | reports hm hra hl flag howed =>
        have hpos := (hreport hm).2
        have hd : s.suppressDone = true := Bool.toNat_eq_one.mp (by omega)
        rw [flag, howed, hd, hm]
        exact ⟨fun _ => Iff.rfl, by rw [Bool.toNat_false]; omega⟩
      | ends hm he flag howed =>
        have hzero : owed = 0 := hprompt (.inr (he.imp_right fun hc => ⟨hc, hm⟩))
        have hd : s.suppressDone = false := Bool.toNat_eq_zero.mp (by omega)
        rw [flag, howed, hd, hm, hzero]
        exact ⟨fun _ => Iff.rfl, rfl⟩
      | other hra hc hl flag howed =>
        rw [flag, howed, hc]
        exact ⟨nofun, hs⟩
    exact ⟨hsum.1, ih hprest hrrest hsum.2⟩

/-- If all reports are passed over, there are never more of them to come than the flag tells of. -/
theorem OneForOne.prompt {steps : List (Action × Bool)} {owed : Nat} {s : Session}
    (h : OneForOne s steps) (hr : Reported owed s steps) :
    owed ≤ s.suppressDone.toNat ∧ Prompt owed s steps := by
  induction steps generalizing owed s with
  | nil =>
    obtain rfl : owed = 0 := hr
    exact ⟨Nat.zero_le _, trivial⟩
  | cons step rest ih =>
    obtain ⟨a, report⟩ := step
    obtain ⟨hone, horest⟩ := h
    obtain ⟨hreport, hrrest⟩ := hr
    obtain ⟨hle, hprompt⟩ := ih horest hrrest
    have hsum : owed ≤ s.suppressDone.toNat ∧
        (s.replaces a = true ∨ a.leaves = true ∨ a.closes = true ∧ report = false → owed = 0) := by
      cases markedStep s fun hm => (hreport hm).1 with
      | replaces hra hc flag howed =>
        rw [flag, howed, Bool.toNat_true] at hle
        have hzero : owed = 0 := by omega
        exact ⟨by omega, fun _ => hzero⟩
      | reports hm hra hl flag howed =>
        have hd : s.suppressDone = true := (hone (hreport hm).1).mpr hm
        rw [flag, howed, Bool.toNat_false] at hle
        rw [hd, Bool.toNat_true]
        refine ⟨by omega, ?_⟩
        rintro (hra' | hl' | ⟨_, hm'⟩)
        · cases hra.symm.trans hra'
        · cases hl.symm.trans hl'
        · cases hm.symm.trans hm'
      | ends hm he flag howed =>
        rw [flag, howed, Bool.toNat_false] at hle
        have hzero : owed = 0 := by omega
        exact ⟨by omega, fun _ => hzero⟩
      | other hra hc hl flag howed =>
        rw [flag, howed] at hle
        refine ⟨hle, ?_⟩
        rintro (hra' | hl' | ⟨hc', _⟩)
        · cases hra.symm.trans hra'
        · cases hl.symm.trans hl'
        · cases hc.symm.trans hc'
    exact ⟨hsum.1, hsum.2, hprompt⟩

/-- In every run, a report that the popup closed is passed over exactly if a visible popup was
replaced since the last report and since insertion was left last. Nothing but the flag changes then;
otherwise it dismisses the popup or accepts an item. So if for each popup that is replaced the
editor reports once that it closed, what is passed over are exactly these reports if and only if
they come promptly. -/
theorem replacedPopup_reported (setup : Setup) (past : List Action) (steps : List (Action × Bool)) :
    let s := setup.session.after past
    (s.suppressDone = true ↔ ∃ before a since, past = before ++ a :: since ∧
      (setup.session.after before).replaces a = true ∧
      ∀ x ∈ since, (x.closes || x.leaves) = false) ∧
    (∀ selection, s.suppressDone = true →
      s.act (.completeDone selection) = ({ s with suppressDone := false } : Session).log .trace
        "accept" "Popup replaced by fresh results" ∧
      (s.act (.completeDone selection)).events = s.events) ∧
    (∀ selection, s.suppressDone = false → s.act (.completeDone selection) =
      match s.selected? selection with
      | none => s.reset .dismissed
      | some m => s.acceptMatch m) ∧
    (Reported 0 setup.session steps →
      (OneForOne setup.session steps ↔ Prompt 0 setup.session steps)) := by
  intro s
  refine ⟨suppressDone_iff setup past, ?_, ?_, ?_⟩
  · intro selection h
    have he : s.act (.completeDone selection) = ({ s with suppressDone := false } : Session).log
        .trace "accept" "Popup replaced by fresh results" := by
      change s.completeDone (s.selected? selection) = _
      unfold completeDone
      rw [if_pos h]
    rw [he]
    exact ⟨rfl, Tells.events_eq (.one rfl rfl)⟩
  · intro selection h
    change s.completeDone (s.selected? selection) = _
    exact if_neg (by simp [h])
  · intro hr
    exact ⟨fun h => (h.prompt hr).2, fun h => h.oneForOne hr rfl⟩

/-- The popup is replaced, reported closed for that, and dismissed by the user. -/
def replacedOnce : Setup × List (Action × Bool) :=
  ({ config := {}, uri := "file:///a", lines := [[]], cursor := ⟨0, 0⟩, missing := [],
     signatureView := false, snippets := [], matcher := ⟨fun _ _ => true⟩, commands := none,
     cancellable := true },
   [(.attach ⟨1⟩ { completion := some {} } {}, false), (.perform ⟨.setVisible true, rfl⟩, false),
    (.triggerCompletion, false), (.respond (.number 0) (.ok (.arr [])), false), (.deliver 0, false),
    (.triggerCompletion, false), (.completeDone .dismissed, true),
    (.completeDone .dismissed, false)])

/-- The report changes nothing, and the dismissal counts. -/
theorem replacedPopup_reported_once :
    let s := replacedOnce.1.session.after ((replacedOnce.2.take 6).map (·.1))
    OneForOne replacedOnce.1.session replacedOnce.2 ∧
      s.suppressDone = true ∧ (s.act (.completeDone .dismissed)).events = s.events := by
  intro s
  obtain ⟨_, hreport, _, hsteps⟩ := replacedPopup_reported replacedOnce.1
    ((replacedOnce.2.take 6).map (·.1)) replacedOnce.2
  have hs : s.suppressDone = true := by decide +kernel
  have hreported : Reported 0 replacedOnce.1.session replacedOnce.2 := by decide +kernel
  exact ⟨(hsteps hreported).mpr (by decide +kernel), hs, (hreport .dismissed hs).2⟩

/-- Results are shown twice while the popup is visible, which is reported only then, first at rest
and then while results are asked for. -/
def replacedTwice : Setup × List (Action × Bool) :=
  (replacedOnce.1,
   [(.attach ⟨1⟩ { completion := some {} } {}, false), (.perform ⟨.setVisible true, rfl⟩, false),
    (.triggerCompletion, false), (.respond (.number 0) (.ok (.arr [])), false), (.deliver 0, false),
    (.triggerCompletion, false), (.respond (.number 1) (.ok (.arr [])), false), (.deliver 0, false),
    (.completeDone .dismissed, true), (.triggerCompletion, false)])

/-- The second report is taken for the user's doing, and the round is given up. -/
theorem replacedTwice_dismissed :
    let s := replacedTwice.1.session.after (replacedTwice.2.map (·.1))
    let report := Action.completeDone .dismissed
    Reported 0 replacedTwice.1.session (replacedTwice.2 ++ [(report, true)]) ∧
      ¬ OneForOne replacedTwice.1.session (replacedTwice.2 ++ [(report, true)]) ∧
      s.activity = .requestInFlight ∧ (s.act report).activity = .idle ∧
      (s.act report).events = s.events ++ [.cancelled ⟨3⟩ .dismissed] := by
  intro s report
  have hr : Reported 0 replacedTwice.1.session (replacedTwice.2 ++ [(report, true)]) := by
    decide +kernel
  have hp : ¬ Prompt 0 replacedTwice.1.session (replacedTwice.2 ++ [(report, true)]) := by
    decide +kernel
  refine ⟨hr, fun h => hp (h.prompt hr).2, ?_, ?_, ?_⟩
  · decide +kernel
  · decide +kernel
  · decide +kernel

end Session
end Autocomplete

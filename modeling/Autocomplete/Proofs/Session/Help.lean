import Autocomplete.Proofs.Session.Detachment
import Autocomplete.Proofs.Session.Notices

/-! Signature help of a server that is detached. Nothing is told of it any more, unless its answer has
been put into the round before: that answer stays there and is looked at when the round ends. -/
namespace Autocomplete

theorem helpFailure_toList (server : ServerId) (text : String) :
    (helpFailure server text).toList = "Signature help failed on server#".toList ++
      (Nat.toDigits 10 server.index ++ ':' :: ' ' :: text.toList) := by
  have h : helpFailure server text =
      "Signature help failed on " ++ ("server#" ++ server.index.repr) ++ ": " ++ text := rfl
  have hp : "Signature help failed on server#".toList =
      "Signature help failed on ".toList ++ "server#".toList := rfl
  have hc : ": ".toList = [':', ' '] := rfl
  simp only [h, String.toList_append, Nat.toList_repr, hp, hc, List.append_assoc, List.cons_append,
    List.nil_append]

/-- A colon ends the number of the server. -/
theorem helpFailure_server {x y : ServerId} {a b : String}
    (h : helpFailure x a = helpFailure y b) : x = y := by
  have number (n : Nat) (l : List Char) :
      (Nat.toDigits 10 n ++ ':' :: l).takeWhile (·.isDigit) = Nat.toDigits 10 n := by
    rw [List.takeWhile_append_of_pos fun c hc => Nat.isDigit_of_mem_toDigits (by decide) (by decide) hc]
    exact List.append_nil _
  have hl := congrArg String.toList h
  rw [helpFailure_toList, helpFailure_toList] at hl
  have hd := congrArg (List.takeWhile (·.isDigit)) (List.append_cancel_left hl)
  rw [number, number] at hd
  have hi : x.index = y.index := by
    rw [← Nat.ofDigitChars_ten_toDigits (n := x.index), hd, Nat.ofDigitChars_ten_toDigits]
  cases x
  cases y
  exact congrArg ServerId.mk hi

theorem helpFailure_ne (x y : ServerId) (a b : String) :
    helpFailure x a ≠ s!"Completion failed on {y.display}: {b}" := by
  intro h
  have hc : (s!"Completion failed on {y.display}: {b}").toList =
      "Completion failed on ".toList ++ (y.display ++ ": " ++ b).toList := by
    rw [← String.toList_append]
    simp only [String.append_assoc]
    rfl
  have hl := congrArg String.toList h
  rw [helpFailure_toList, hc] at hl
  have hhead : 'S' = 'C' := (List.cons.inj hl).1
  exact absurd hhead (by decide)

namespace Observation

/-- Signature help of a server is shown, or its failure is reported. -/
inductive HelpOf (server : ServerId) : Observation → Prop where
  | shown (help : SignatureHelp) : HelpOf server (.call (.signature server help))
  | published (count : Nat) : HelpOf server (.event (.signatureHelpShown server count))
  | failed (text : String) : HelpOf server (.call (.notify .error (helpFailure server text)))

theorem Ordinary.not_helpOf {o : Observation} (h : o.Ordinary) (server : ServerId) :
    ¬ o.HelpOf server := by
  cases h with
  | preliminary h =>
    cases h with
    | routine h =>
      cases h with
      | event he =>
        intro ho
        cases ho
        cases he
      | _ => nofun
    | _ => nofun
  | failure x b =>
    generalize hm : s!"Completion failed on {x.display}: {b}" = message
    intro ho
    cases ho with | failed a => exact helpFailure_ne server x a b hm.symm
  | _ => nofun

theorem Routine.not_helpOf {o : Observation} (h : o.Routine) (server : ServerId) :
    ¬ o.HelpOf server := h.ordinary.not_helpOf server

end Observation

/-- What is told of an answer when it is looked at. -/
inductive Viewed (server : ServerId) : Reply → List Observation → Prop where
  | shown {value : Json} {help : SignatureHelp}
      (hd : Decoder.nullable SignatureHelp.decode value = .ok (some help))
      (hs : help.signatures.isEmpty = false) :
      Viewed server (.ok value)
        [.call (.signature server help), .event (.signatureHelpShown server help.signatures.length)]
  | failed {e : ResponseError} (h : e.isCancelled = false) :
      Viewed server (.error e) [.call (.notify .error (helpFailure server e.message))]

namespace Session
open Observation

/-- Nothing is told of signature help of a server. -/
abbrev Hushed (server : ServerId) : Session → Session → Prop := Tells (¬ HelpOf server ·)

/-- One answer of a server is looked at, and nothing else is told of its signature help. -/
def Views (server : ServerId) (reply : Reply) (s t : Session) : Prop :=
  ∃ before view after, t.trace = s.trace ++ (before ++ view ++ after) ∧ Viewed server reply view ∧
    (∀ o ∈ before, ¬ o.HelpOf server) ∧ ∀ o ∈ after, ¬ o.HelpOf server

section
variable {server : ServerId} {reply : Reply} {s t u : Session}

theorem Tells.hushed (h : Tells Ordinary s t) : Hushed server s t :=
  h.mono fun _ ho => ho.not_helpOf server

theorem Hushed.views (h : Hushed server s t) (g : Views server reply t u) :
    Views server reply s u := by
  obtain ⟨obs, ht, ho⟩ := h
  obtain ⟨before, view, after, hu, hv, hb, ha⟩ := g
  refine ⟨obs ++ before, view, after, by simp [hu, ht], hv, fun o hm => ?_, ha⟩
  exact (List.mem_append.mp hm).elim (ho o) (hb o)

theorem Views.hushed (h : Views server reply s t) (g : Hushed server t u) :
    Views server reply s u := by
  obtain ⟨before, view, after, ht, hv, hb, ha⟩ := h
  obtain ⟨obs, hu, ho⟩ := g
  refine ⟨before, view, after ++ obs, by simp [hu, ht], hv, hb, fun o hm => ?_⟩
  exact (List.mem_append.mp hm).elim (ha o) (ho o)

/-- Looking at the answer of another server tells nothing of this one. -/
theorem viewSignature_hushed (shown : Bool) {x : ServerId} (hx : x ≠ server) :
    Hushed server s (viewSignature (s, shown) (x, reply)).1 := by
  have log (r : LogRecord) : ¬ (Observation.log r).HelpOf server :=
    (Routine.log r).not_helpOf server
  rcases viewSignature_cases s shown x reply with h | ⟨e, _, _, h⟩ | ⟨_, help, _, _, _, h⟩ | h
  · exact .of_eq (by rw [h])
  · rw [h]
    refine Tells.report s .error _ log fun h => ?_
    change HelpOf server (.call (.notify .error (helpFailure x e.message))) at h
    generalize hm : helpFailure x e.message = message at h
    cases h with | failed text => exact hx (helpFailure_server hm)
  · rw [h]
    have hc : Hushed server s (s.call (.signature x help)) :=
      .one rfl fun h => by cases h; exact hx rfl
    exact hc.trans (.one rfl fun h => by cases h; exact hx rfl)
  · rw [h]
    exact .one rfl (log _)

theorem viewSignature_views (s : Session) (shown : Bool) (server : ServerId) (reply : Reply) :
    Hushed server s (viewSignature (s, shown) (server, reply)).1 ∨
      Views server reply s (viewSignature (s, shown) (server, reply)).1 := by
  have log (r : LogRecord) : ¬ (Observation.log r).HelpOf server :=
    (Routine.log r).not_helpOf server
  rcases viewSignature_cases s shown server reply with h | ⟨e, rfl, hc, h⟩ |
    ⟨value, help, rfl, hd, hs, h⟩ | h
  · exact .inl (.of_eq (by rw [h]))
  · rw [h]
    change Hushed server s (s.report .error (helpFailure server e.message)) ∨
      Views server (.error e) s (s.report .error (helpFailure server e.message))
    unfold Session.report
    split
    · exact .inl (.of_eq rfl)
    · extract_lets v w
      have hv : Hushed server s v := .one rfl (log _)
      exact .inr (hv.views ⟨[], _, [], by simp [w, call], .failed hc, by simp, by simp⟩)
  · rw [h]
    exact .inr ⟨[], _, [], by simp [call, emit], .shown hd hs, by simp, by simp⟩
  · rw [h]
    exact .inl (.one rfl (log _))

theorem viewSignatures_views (server : ServerId) (answers : List (ServerId × Reply))
    (hn : (answers.map (·.1)).Nodup) (s : Session) (shown : Bool) :
    Hushed server s (answers.foldl viewSignature (s, shown)).1 ∨
      ∃ reply, (server, reply) ∈ answers ∧
        Views server reply s (answers.foldl viewSignature (s, shown)).1 := by
  induction answers generalizing s shown with
  | nil => exact .inl (.of_eq rfl)
  | cons answer rest ih =>
    obtain ⟨x, reply⟩ := answer
    obtain ⟨hx, hn⟩ := List.nodup_cons.mp hn
    have hrest := ih hn (viewSignature (s, shown) (x, reply)).1
      (viewSignature (s, shown) (x, reply)).2
    rw [List.foldl_cons]
    by_cases he : x = server
    · subst he
      have hr := hrest.resolve_right fun ⟨r, hm, _⟩ => hx (List.mem_map.mpr ⟨_, hm, rfl⟩)
      rcases viewSignature_views s shown x reply with hv | hv
      · exact .inl (hv.trans hr)
      · exact .inr ⟨reply, List.mem_cons_self, hv.hushed hr⟩
    · have hv : Hushed server s (viewSignature (s, shown) (x, reply)).1 :=
        viewSignature_hushed shown he
      rcases hrest with hr | ⟨r, hm, hr⟩
      · exact .inl (hv.trans hr)
      · exact .inr ⟨r, List.mem_cons_of_mem _ hm, hv.views hr⟩

/-- When a round ends, at most the answer that it holds of a server is told. -/
theorem finishSignatureRound_views (s : Session) (g : SignatureRound) (server : ServerId) :
    Hushed server s (s.finishSignatureRound g) ∨
      ∃ reply, g.replies.find? server = some reply ∧
        Views server reply s (s.finishSignatureRound g) := by
  unfold finishSignatureRound
  dsimp only
  split
  · rcases viewSignatures_views server g.replies.entries (Table.nodup_keys g.replies)
      { s with signatureRound := none } false with h | ⟨reply, hm, h⟩
    · exact .inl h
    · exact .inr ⟨reply, (Table.find?_eq_some_iff _ _ _).mpr hm, h⟩
  · exact .inl (.of_eq rfl)

/-- From one state to another, the answer of a server that a round holds is looked at or not, once.
Whatever the round holds of it in the end it has held before. -/
inductive HelpStep (server : ServerId) (s t : Session) : Prop where
  | hushed (h : Hushed server s t)
      (kept : ∀ g reply, t.signatureRound = some g → g.replies.find? server = some reply →
        ∃ d, s.signatureRound = some d ∧ d.replies.find? server = some reply)
  | viewed {d : SignatureRound} {reply : Reply} (hd : s.signatureRound = some d)
      (hr : d.replies.find? server = some reply) (h : Views server reply s t)
      (done : ∀ g, t.signatureRound = some g → g.replies.find? server = none)

namespace HelpStep

theorem of_eq (h : Tells Ordinary s t) (hg : t.signatureRound = s.signatureRound) :
    HelpStep server s t := .hushed h.hushed fun g _ he hr => ⟨g, hg ▸ he, hr⟩

theorem trans (h : HelpStep server s t) (g : HelpStep server t u) : HelpStep server s u := by
  cases h with
  | hushed h kept =>
    cases g with
    | hushed g keep =>
      refine .hushed (h.trans g) fun e reply he hr => ?_
      obtain ⟨d, hd, hr⟩ := keep e reply he hr
      exact kept d reply hd hr
    | viewed hd hr g done =>
      obtain ⟨d, hd, hr⟩ := kept _ _ hd hr
      exact .viewed hd hr (h.views g) done
  | viewed hd hr h done =>
    cases g with
    | hushed g keep =>
      refine .viewed hd hr (h.hushed g) fun e he => Option.eq_none_iff_forall_ne_some.mpr ?_
      intro reply hr
      obtain ⟨d, hd, hr⟩ := keep e reply he hr
      rw [done d hd] at hr
      cases hr
    | viewed hd' hr' =>
      rw [done _ hd'] at hr'
      cases hr'

/-- The round ends. -/
theorem finish {d g : SignatureRound} (hd : s.signatureRound = some d)
    (hr : ∀ reply, g.replies.find? server = some reply → d.replies.find? server = some reply)
    (ht : Tells Ordinary s t) : HelpStep server s (t.finishSignatureRound g) := by
  have hn : (t.finishSignatureRound g).signatureRound = none := by
    rw [finishSignatureRound_frame]
  rcases finishSignatureRound_views t g server with h | ⟨reply, hg, h⟩
  · exact .hushed (ht.hushed.trans h) fun e _ he => by rw [hn] at he; cases he
  · exact .viewed hd (hr reply hg) (ht.hushed.views h) fun e he => by rw [hn] at he; cases he

end HelpStep

theorem takeSignature_helpStep (h : Remembers s) (hx : s.bindings.contains server = false)
    {place n : Nat} {x : ServerId}
    (hm : s.queue[place]? = some (.reply n x .signatureHelp reply))
    (hl : s.isLive (.reply n x .signatureHelp reply) = true) :
    HelpStep server s ({ s with queue := s.queue.eraseIdx place }.takeSignature x reply) := by
  obtain ⟨r, ho, rfl, hp, _⟩ := h.outstanding_of_live hm hl
  obtain ⟨g, hg, hn⟩ := h.help n r ho hp
  -- Only servers that are attached are waited for.
  have hne : r.server ≠ server := by
    rintro rfl
    exact Bool.false_ne_true (hx.symm.trans (h.asked g r.server n hg hn).1)
  have hfind (a : Reply) (ha : (g.record r.server reply).replies.find? server = some a) :
      g.replies.find? server = some a := by
    change (g.replies.insert r.server reply).find? server = some a at ha
    rwa [Table.find?_insert, if_neg hne] at ha
  have hd : Tells Ordinary s { s with queue := s.queue.eraseIdx place } := .of_eq rfl
  have hu : ({ s with queue := s.queue.eraseIdx place } : Session).signatureRound = some g := hg
  rw [takeSignature_eq reply hu hn]
  dsimp only
  split
  · exact .finish hg hfind hd
  · refine .hushed (.of_eq rfl) fun e a he ha => ?_
    obtain rfl := Option.some.inj he
    exact ⟨g, hg, hfind a ha⟩

theorem Change.helpStep (hc : Change s t) (h : Remembers s)
    (hx : s.bindings.contains server = false) : HelpStep server s t := by
  rcases hc.tells with ht | ⟨_, _, _, _, hm, live, rfl⟩
  case inr => exact takeSignature_helpStep h hx hm live
  cases hc with
  | takeSignature _ _ _ _ hm live => exact takeSignature_helpStep h hx hm live
  | report => exact .of_eq ht (by rw [report_frame])
  | registerCommand => exact .of_eq ht (by rw [registerCommand_frame])
  | giveUpRound => exact .of_eq ht (by rw [giveUpRound_frame])
  | openRound => exact .of_eq ht (by rw [openRound_frame])
  | sendCommand => exact .of_eq ht (by rw [send_frame])
  | answer => exact .of_eq ht (by rw [answer_frame])
  | cancelSignatureRound =>
    refine .hushed ht.hushed fun g _ hg => ?_
    rw [cancelSignatureRound_frame] at hg
    cases hg
  | openSignatureRound trigger hs =>
    refine .hushed ht.hushed fun g reply hg hr => ?_
    have hf := askAll_frame .signatureHelp (fun s b => s.signatureParams trigger b) s
      (s.bindings.values.filter (wantsSignature trigger))
    unfold Session.openSignatureRound at hg
    dsimp only at hg
    split at hg
    · rw [hf, hs] at hg
      cases hg
    · obtain rfl := Option.some.inj hg
      cases hr
  | _ => exact .of_eq ht rfl

theorem TextChange.helpStep (hc : TextChange s t) : HelpStep server s t := by
  have hg : t.signatureRound = s.signatureRound := by
    cases hc with
    | supersedeResolve => rw [supersedeResolve_frame]
    | sendResolve payload =>
      unfold Session.sendResolve
      dsimp only
      rw [send_frame]
      rfl
    | expand => rw [expand_frame]
    | _ => rfl
  rcases hc.tells with ht | ⟨payload, expanded, rfl⟩
  · exact .of_eq ht hg
  · exact .hushed (.one rfl nofun) fun g _ he hr => ⟨g, hg ▸ he, hr⟩

theorem detachFromSignature_helpStep (s : Session) (server x : ServerId) :
    HelpStep server s (s.detachFromSignature x) := by
  rcases s.detachFromSignature_cases x with ⟨h, _⟩ | ⟨g, n, hg, _, h⟩
  · rw [h]
    exact .of_eq (.of_eq rfl) rfl
  · rw [h]
    extract_lets t
    have hc := Adds.cancel { s with signatureRound := some (g.without x) } n
    have ht : Tells Ordinary s t := (hc.routine (by simp) (by simp)).ordinary
    split
    · exact .finish hg (fun _ hr => hr) ht
    · refine .hushed ht.hushed fun e reply he hr => ?_
      change (Session.cancel _ n).signatureRound = some e at he
      rw [cancel_frame] at he
      obtain rfl := Option.some.inj he
      exact ⟨g, hg, hr⟩

theorem detach_helpStep (s : Session) (server x : ServerId) : HelpStep server s (s.detach x) := by
  unfold detach
  split
  · extract_lets u
    have hu : HelpStep server s u := .of_eq (.one rfl (Routine.note _).ordinary) rfl
    refine (hu.trans (detachFromSignature_helpStep u server x)).trans ?_
    have ht := Tells.detachFromRound (u.detachFromSignature x) x
    exact .of_eq (ht.mono fun _ => Reporting.ordinary) (by rw [detachFromRound_frame])
  · exact .of_eq (.of_eq rfl) rfl

/-- The round does not hold an answer of a server that it waits for. -/
theorem detach_hushed (h : Remembers s) (server : ServerId) : Hushed server s (s.detach server) := by
  unfold detach
  split
  · extract_lets u
    have hu : Hushed server s u := .one rfl ((Routine.note _).not_helpOf server)
    have hr := (Tells.detachFromRound (u.detachFromSignature server) server).mono
      fun _ => Reporting.ordinary
    refine (hu.trans ?_).trans hr.hushed
    rcases u.detachFromSignature_cases server with ⟨he, _⟩ | ⟨g, n, hg, hn, he⟩
    · exact .of_eq (by rw [he])
    · rw [he]
      extract_lets t
      have hc := Adds.cancel { u with signatureRound := some (g.without server) } n
      have ht : Tells Ordinary u t := (hc.routine (by simp) (by simp)).ordinary
      split
      · rcases finishSignatureRound_views t (g.without server) server with hd | ⟨reply, hr, _⟩
        · exact ht.hushed.trans hd
        · have hnone : g.replies.find? server = none := (h.asked g server n hg hn).2
          change g.replies.find? server = some reply at hr
          rw [hnone] at hr
          cases hr
      · exact ht.hushed
  · exact .of_eq rfl

theorem RoundChange.helpStep (hc : RoundChange s t) : HelpStep server s t := by
  cases hc with
  | attach x capabilities options =>
    exact .of_eq (attach_tells s x capabilities options).ordinary (by rw [attach_frame])
  | detach x => exact detach_helpStep s server x
  | takeCompletion place n x id reply =>
    have ht := Tells.takeCompletion { s with queue := s.queue.eraseIdx place } id x reply
    exact .of_eq (ht.mono fun _ => Reporting.ordinary) (by rw [takeCompletion_frame])

end

/-- In every run, after a server was detached and until it is attached again, its signature help is
not shown and no failure of it is reported, unless the round under way held its answer when it was
detached. That answer is told at most once. -/
theorem detached_help (setup : Setup) (past later : List Action) (server : ServerId)
    (gone : ∀ a ∈ later, a.attaches server = false) :
    let s := setup.session.after past
    let t := s.detach server
    let u := t.after later
    Hushed server s t ∧
      (Hushed server t u ∨ ∃ g reply, s.signatureRound = some g ∧
        g.replies.find? server = some reply ∧ Views server reply t u) := by
  intro s t u
  have hs : Remembers s := after_remembers setup past
  have ht : Remembers t := detach_remembers hs server
  have hdet : t.bindings.contains server = false := s.detach_contains_bindings server
  have hu : HelpStep server t u := (after_detached
    (P := fun v => Remembers v ∧ HelpStep server t v)
    (fun v w hc hx hv => ⟨hc.remembers hv.1, hv.2.trans (hc.helpStep hv.1 hx)⟩)
    (fun v w hc _ hv => ⟨hc.remembers hv.1, hv.2.trans hc.helpStep⟩)
    (fun v w hc _ _ hv => ⟨hc.remembers hv.1, hv.2.trans hc.helpStep⟩)
    hdet ⟨ht, .of_eq (.of_eq rfl) rfl⟩ later gone).2.2
  refine ⟨detach_hushed hs server, ?_⟩
  cases hu with
  | hushed h => exact .inl h
  | viewed hd hr h =>
    right
    cases s.detach_helpStep server server with
    | hushed _ kept =>
      obtain ⟨g, hg, hr⟩ := kept _ _ hd hr
      exact ⟨g, _, hg, hr, h⟩
    | viewed _ _ _ done =>
      rw [done _ hd] at hr
      cases hr

/-- Two servers were asked for signature help, and the first one has sent it. -/
def firstAnswer : Setup × List Action :=
  ({ config := {}, uri := "file:///a", lines := [[]], cursor := ⟨0, 0⟩, missing := [],
     signatureView := true, snippets := [], matcher := ⟨fun _ _ => true⟩, commands := none,
     cancellable := true },
   [.perform ⟨.attach ⟨1⟩ { signatureHelp := some {} } {}, rfl⟩,
    .perform ⟨.attach ⟨2⟩ { signatureHelp := some {} } {}, rfl⟩,
    .askForHelp,
    .perform ⟨.respond (.number 0)
      (.ok (.obj [("signatures", .arr [.obj [("label", .str "f()")]])])), rfl⟩,
    .deliver 0])

/-- The first server is detached, the second one has no help, and that of the first one is shown. -/
theorem detached_help_firstAnswer :
    let s := firstAnswer.1.session.after firstAnswer.2
    let t := s.detach ⟨1⟩
    ∃ g reply, s.signatureRound = some g ∧ g.replies.find? ⟨1⟩ = some reply ∧
      Views ⟨1⟩ reply t (t.after [.perform ⟨.respond (.number 1) (.ok .null), rfl⟩, .deliver 0]) := by
  intro s t
  have hshown : ((t.after [.perform ⟨.respond (.number 1) (.ok .null), rfl⟩,
      .deliver 0]).trace.drop t.trace.length).any
        (·.event? = some (.signatureHelpShown ⟨1⟩ 1)) = true := by
    decide +kernel
  refine (detached_help firstAnswer.1 firstAnswer.2 _ ⟨1⟩ (by decide)).2.resolve_left ?_
  rintro ⟨obs, ht, ho⟩
  rw [ht, List.drop_left] at hshown
  obtain ⟨o, hm, hs⟩ := List.any_eq_true.mp hshown
  refine ho o hm ?_
  have hs : o.event? = some (.signatureHelpShown ⟨1⟩ 1) := of_decide_eq_true hs
  cases o with
  | event e =>
    obtain rfl := Option.some.inj hs
    exact .published 1
  | _ => cases hs

end Session
end Autocomplete

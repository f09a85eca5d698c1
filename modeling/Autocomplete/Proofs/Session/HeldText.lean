import Autocomplete.Proofs.Session.Trace

/-! What becomes of text that is taken out of the buffer for a snippet. While the missing parts of the
accepted item are asked for, the session holds the text; afterwards it goes to a snippet engine or
back into the buffer. Only the acceptance of another item in between loses it. -/
namespace Autocomplete
open Text

/-- What happens to text that is taken out of the buffer. -/
inductive TextMove where
  | taken (e : Expansion)
  | handed (snippet : String)
  | putBack (text : Line)

def Observation.textMove? : Observation → Option TextMove
  | .edit (.makeRoom e) .. => some (.taken e)
  | .call (.expand _ template) => some (.handed template)
  | .edit .putBack _ _ text => some (.putBack text)
  | _ => none

/-- `Accounted out moves out' lost`: there is never more than one text out of the buffer, and every
text that is taken out is handed over once, put back once, lost, or the one that is out in the end.
In the beginning `out` is out, and in the end it is `out'`. -/
inductive Accounted : Option Expansion → List TextMove → Option Expansion → List Expansion → Prop where
  | done (out : Option Expansion) : Accounted out [] out []
  | taken {e : Expansion} {moves : List TextMove} {out : Option Expansion} {lost : List Expansion} :
      Accounted (some e) moves out lost → Accounted none (.taken e :: moves) out lost
  | handed {e : Expansion} {moves : List TextMove} {out : Option Expansion}
      {lost : List Expansion} :
      Accounted none moves out lost → Accounted (some e) (.handed e.snippet :: moves) out lost
  | putBack {e : Expansion} {moves : List TextMove} {out : Option Expansion}
      {lost : List Expansion} :
      Accounted none moves out lost → Accounted (some e) (.putBack e.literal :: moves) out lost
  | lost {e : Expansion} {moves : List TextMove} {out : Option Expansion} {lost : List Expansion} :
      Accounted none moves out lost → Accounted (some e) moves out (e :: lost)

namespace Accounted

variable {a b c : Option Expansion} {moves more : List TextMove} {lost gone : List Expansion}

theorem trans (h : Accounted a moves b lost) (g : Accounted b more c gone) :
    Accounted a (moves ++ more) c (lost ++ gone) := by
  induction h with
  | done => exact g
  | taken _ ih => exact .taken (ih g)
  | handed _ ih => exact .handed (ih g)
  | putBack _ ih => exact .putBack (ih g)
  | lost _ ih => exact .lost (ih g)

/-- What was lost can be read off from what happened. -/
theorem unique (h : Accounted a moves b lost) (g : Accounted a moves b gone) : lost = gone := by
  induction h generalizing gone with
  | done out =>
    cases g with
    | done => rfl
    | lost g => cases g
  | taken _ ih =>
    cases g with
    | taken g => exact ih g
  | handed _ ih =>
    cases g with
    | handed g => exact ih g
    | lost g => cases g
  | putBack _ ih =>
    cases g with
    | putBack g => exact ih g
    | lost g => cases g
  | lost h ih =>
    cases g with
    | done => cases h
    | handed => cases h
    | putBack => cases h
    | lost g => rw [ih g]

end Accounted

namespace Session
open Relation

def moves (s : Session) : List TextMove := s.trace.filterMap Observation.textMove?

/-- The text that is out of the buffer between two operations. -/
def held (s : Session) : Option Expansion := s.resolve.bind (·.expansion)

/-- The text that is lost by an action: it is still held when another item is accepted. -/
def overridden? (s : Session) : Action → Option Expansion
  | .perform ⟨.completeDone selection, _⟩ =>
    if s.suppressDone then none else if (s.selected? selection).isSome then s.held else none
  | _ => none

/-- The texts that are lost during a run. -/
def overridden : Session → List Action → List Expansion
  | _, [] => []
  | s, a :: rest => (s.overridden? a).toList ++ overridden (s.act a) rest

/-- From one state to another, text is moved as it has to be. -/
def Moves (s : Session) (out : Option Expansion) (t : Session) (out' : Option Expansion)
    (lost : List Expansion) : Prop :=
  ∃ moves, t.moves = s.moves ++ moves ∧ Accounted out moves out' lost

namespace Moves

variable {s t u : Session} {a b c : Option Expansion} {lost gone : List Expansion}

theorem trans (h : Moves s a t b lost) (g : Moves t b u c gone) : Moves s a u c (lost ++ gone) := by
  obtain ⟨first, hm, ha⟩ := h
  obtain ⟨second, hn, hb⟩ := g
  exact ⟨first ++ second, by rw [hn, hm, List.append_assoc], ha.trans hb⟩

theorem of_eq (h : t.moves = s.moves) (out : Option Expansion) : Moves s out t out [] :=
  ⟨[], by simp [h], .done out⟩

end Moves

theorem held_eq {s t : Session} (h : t.resolve = s.resolve) : t.held = s.held := by
  rw [held, held, h]

theorem textMove?_eq_none {o : Observation} (h : o.kind ≠ .text) : o.textMove? = none := by
  cases o with
  | call c => cases c <;> simp_all [Observation.kind, Observation.textMove?]
  | edit cause => cases cause <;> simp_all [Observation.kind, Observation.textMove?]
  | _ => rfl

theorem Adds.moves_eq {kinds : List Observation.Kind} {s t : Session} (h : Adds kinds s t)
    (hk : Observation.Kind.text ∉ kinds) : t.moves = s.moves :=
  h.filterMap_eq fun _ ho => textMove?_eq_none fun he => hk (he ▸ ho)

theorem Change.resolve_eq {s t : Session} (h : Change s t) : t.resolve = s.resolve := by
  rw [h.frame]

theorem RoundChange.resolve_eq {s t : Session} (h : RoundChange s t) : t.resolve = s.resolve := by
  cases h with
  | attach => rw [attach_frame]
  | detach => rw [detach_frame]
  | takeCompletion => rw [takeCompletion_frame]

theorem Quiet.resolve_eq {s t : Session} (h : Quiet s t) : t.resolve = s.resolve := by
  induction h with
  | refl => rfl
  | tail _ hc ih => rw [hc.resolve_eq, ih]

theorem Quiet.moves_eq {s t : Session} (h : Quiet s t) : t.moves = s.moves := by
  induction h with
  | refl => rfl
  | tail _ hc ih => rw [hc.adds.moves_eq (by simp), ih]

theorem RoundChange.moves_eq {s t : Session} (h : RoundChange s t) : t.moves = s.moves :=
  h.adds.moves_eq (by simp)

theorem Quiet.moves {s t : Session} (h : Quiet s t) (out : Option Expansion) :
    Moves s out t out [] :=
  .of_eq (Quiet.moves_eq h) out

theorem restoreLiteral_moves (s : Session) (e : Expansion) :
    Moves s (some e) (s.restoreLiteral e) none [] := by
  refine ⟨[.putBack e.literal], ?_, .putBack (.done none)⟩
  simp [moves, restoreLiteral, edit, Observation.textMove?]

theorem expand_moves (s : Session) (e : Expansion) :
    Moves s (some e) (s.expand e).1 none [] ∧ (s.expand e).1.resolve = s.resolve := by
  unfold expand
  split
  · split
    next engine _ =>
      have hc : Moves s (some e) (s.call (.expand engine.name e.snippet)) none [] :=
        ⟨[.handed e.snippet], by simp [moves, call, Observation.textMove?], .handed (.done none)⟩
      exact ⟨hc.trans (Quiet.moves (Change.log ..).quiet none), rfl⟩
    · have hr := Change.report s "No snippet engine available, inserting literal text"
      exact ⟨(Quiet.moves hr.quiet _).trans (restoreLiteral_moves _ e), hr.resolve_eq⟩
  · exact ⟨restoreLiteral_moves s e, rfl⟩

theorem concludeAccept_moves (s : Session) (payload : Payload) (resolved : Option Command)
    (expanded : Bool) :
    Moves s none (s.concludeAccept payload resolved expanded) none [] ∧
      (s.concludeAccept payload resolved expanded).resolve = s.resolve := by
  unfold concludeAccept
  extract_lets t u
  have hl : Adds [.plain] s t := Adds.log ..
  have hu : Adds [.plain] s u := hl.trans (Adds.emit _ _ (by simp [Observation.kind]))
  have hm : Moves s none u none [] := .of_eq (hu.moves_eq (by simp)) none
  split
  next command _ =>
    have hq := executeCommand_quiet u payload.server command
    have hr : u.resolve = s.resolve := rfl
    exact ⟨hm.trans (Quiet.moves hq none), (Quiet.resolve_eq hq).trans hr⟩
  next => exact ⟨hm, rfl⟩

theorem finishAccept_moves (s : Session) (payload : Payload) (resolved : Option Command)
    (expansion : Option Expansion) :
    Moves s expansion (s.finishAccept payload resolved expansion) none [] ∧
      (s.finishAccept payload resolved expansion).resolve = s.resolve := by
  cases expansion with
  | none => exact concludeAccept_moves s payload resolved false
  | some e =>
    obtain ⟨hm, hr⟩ := expand_moves s e
    obtain ⟨hc, hres⟩ := concludeAccept_moves (s.expand e).1 payload resolved (s.expand e).2
    exact ⟨hm.trans hc, hres.trans hr⟩

theorem supersedeResolve_moves (s : Session) :
    Moves s s.held s.supersedeResolve none s.held.toList ∧ s.supersedeResolve.resolve = none := by
  have hm : s.supersedeResolve.moves = s.moves := by
    unfold supersedeResolve
    split
    next pending _ =>
      have hl := Adds.log s .debug "accept" "Superseding pending resolve" []
      have hc := Adds.cancel
        { s.log .debug "accept" "Superseding pending resolve" with resolve := none } pending.number
      exact (hc.moves_eq (by simp)).trans (hl.moves_eq (by simp))
    · rfl
  have hr : s.supersedeResolve.resolve = none := by rw [supersedeResolve_frame]
  refine ⟨⟨[], by simp [hm], ?_⟩, hr⟩
  cases hh : s.held with
  | none => exact .done none
  | some e => exact .lost (.done none)

theorem prepareExpansion_moves (s : Session) (expand : Bool) (m : Match) :
    Moves s none (s.prepareExpansion expand m).1 (s.prepareExpansion expand m).2 [] ∧
      (s.prepareExpansion expand m).1.resolve = s.resolve := by
  unfold prepareExpansion
  split
  · exact ⟨.of_eq rfl none, rfl⟩
  next template _ =>
    split
    · refine ⟨⟨[.taken (s.removeInsertedWord m.word template).2], ?_, .taken (.done _)⟩, rfl⟩
      simp [moves, removeInsertedWord, edit, Observation.textMove?]
    · have hr := (Change.report s
        s!"No snippet engine available to expand {m.item.label}").quiet
      exact ⟨Quiet.moves hr none, Quiet.resolve_eq hr⟩

theorem sendResolve_moves (s : Session) (payload : Payload) (expansion : Option Expansion) :
    Moves s expansion (s.sendResolve payload expansion) (s.sendResolve payload expansion).held
      [] := by
  have hs : Adds [.plain] s (s.send payload.server .resolve payload.item.encode).1 :=
    Adds.send s payload.server .resolve _ (by simp [Observation.kind, Purpose.method])
  have hl := hs.trans (Adds.log _ .debug "accept" "Resolving accepted item"
    [("server", .str payload.server.display), ("label", .str payload.item.label)])
  exact .of_eq (hl.moves_eq (by simp)) expansion

theorem supplyEdits_moves (s : Session) (m : Match) (expansion : Option Expansion)
    (hs : s.resolve = none) :
    Moves s expansion (s.supplyEdits m expansion) (s.supplyEdits m expansion).held [] := by
  have finish (t : Session) (ht : Quiet s t) :
      Moves s expansion (t.finishAccept m.payload none expansion)
        (t.finishAccept m.payload none expansion).held [] := by
    obtain ⟨hm, hr⟩ := finishAccept_moves t m.payload none expansion
    have hn : (t.finishAccept m.payload none expansion).held = none := by
      rw [held, hr, Quiet.resolve_eq ht, hs]
      rfl
    rw [hn]
    exact (Quiet.moves ht expansion).trans hm
  unfold supplyEdits
  split
  · exact finish _ (applyEdits_quiet _ _ _)
  · split
    · exact sendResolve_moves s m.payload expansion
    · exact finish s .refl

/-- Whatever was held when an item is accepted is lost. -/
theorem acceptMatch_moves (s : Session) (m : Match) :
    Moves s s.held (s.acceptMatch m) (s.acceptMatch m).held s.held.toList := by
  have hq := reset_quiet s .accepted
  have hh : (s.reset .accepted).held = s.held := held_eq (Quiet.resolve_eq hq)
  obtain ⟨hm, hn⟩ := supersedeResolve_moves (s.reset .accepted)
  rw [hh] at hm
  obtain ⟨hp, hr⟩ := prepareExpansion_moves (s.reset .accepted).supersedeResolve s.expandSnippet m
  have he := supplyEdits_moves _ m
    ((s.reset .accepted).supersedeResolve.prepareExpansion s.expandSnippet m).2 (hr.trans hn)
  have h := (((Quiet.moves hq s.held).trans hm).trans hp).trans he
  rwa [List.append_nil, List.append_nil, List.nil_append] at h

theorem completeDone_moves (s : Session) (selection : Selection) :
    Moves s s.held (s.completeDone (s.selected? selection))
      (s.completeDone (s.selected? selection)).held
      (s.overridden? (.perform ⟨.completeDone selection, rfl⟩)).toList := by
  unfold overridden? completeDone
  dsimp only
  split
  · exact .of_eq (Adds.moves_eq (Adds.log ..) (by simp)) s.held
  · cases s.selected? selection with
    | none =>
      have h := reset_quiet s .dismissed
      have hh : (s.reset .dismissed).held = s.held := held_eq (Quiet.resolve_eq h)
      exact hh ▸ Quiet.moves h s.held
    | some m => exact acceptMatch_moves s m

theorem takeResolved_moves (s : Session) (reply : Reply) :
    Moves s s.held (s.takeResolved reply) (s.takeResolved reply).held [] := by
  unfold takeResolved
  split
  next pending hp =>
    have hq := applyResolved_quiet { s with resolve := none } pending reply
    obtain ⟨hm, hr⟩ := finishAccept_moves
      ({ s with resolve := none }.applyResolved pending reply).1 pending.payload
      ({ s with resolve := none }.applyResolved pending reply).2 pending.expansion
    have hh : s.held = pending.expansion := by rw [held, hp]; rfl
    have hn : (({ s with resolve := none }.applyResolved pending reply).1.finishAccept
        pending.payload ({ s with resolve := none }.applyResolved pending reply).2
        pending.expansion).held = none := by
      rw [held, hr, Quiet.resolve_eq hq]
      rfl
    rw [hh]
    exact hn ▸ (Quiet.moves hq _).trans hm
  · exact .of_eq rfl s.held

theorem act_moves (s : Session) (a : Action) :
    Moves s s.held (s.act a) (s.act a).held (s.overridden? a).toList := by
  have still {t : Session} (hm : t.moves = s.moves) (hr : t.resolve = s.resolve) :
      Moves s s.held t t.held [] := by
    have hh : t.held = s.held := held_eq hr
    exact hh ▸ .of_eq hm s.held
  cases a with
  | perform o =>
    obtain ⟨o, ho⟩ := o
    by_cases hc : ∃ selection, o = .completeDone selection
    · obtain ⟨selection, rfl⟩ := hc
      exact completeDone_moves s selection
    · have hn : s.overridden? (.perform ⟨o, ho⟩) = none := by
        unfold overridden?
        split
        next selection _ he =>
          cases he
          exact absurd ⟨selection, rfl⟩ hc
        next => rfl
      rw [hn]
      rcases perform_cases s ⟨o, ho⟩ with h | ⟨server, capabilities, options, rfl⟩ | ⟨server, rfl⟩ | h
      · exact still (Quiet.moves_eq h) (Quiet.resolve_eq h)
      · have h := RoundChange.attach s server capabilities options
        exact still h.moves_eq h.resolve_eq
      · have h := RoundChange.detach s server
        exact still h.moves_eq h.resolve_eq
      · exact absurd h hc
  | deliver place =>
    rcases deliver_cases s place with h | ⟨number, server, id, reply, hm, live, h⟩ |
      ⟨_, _, reply, _, _, h⟩
    · exact still (Quiet.moves_eq h) (Quiet.resolve_eq h)
    · change Moves s s.held (s.deliver place) (s.deliver place).held []
      rw [h]
      have ht := RoundChange.takeCompletion s place number server id reply hm live
      exact still ht.moves_eq ht.resolve_eq
    · change Moves s s.held (s.deliver place) (s.deliver place).held []
      rw [h]
      exact takeResolved_moves _ reply

theorem after_moves (s : Session) (actions : List Action) :
    Moves s s.held (s.after actions) (s.after actions).held (overridden s actions) := by
  induction actions generalizing s with
  | nil => exact .of_eq rfl s.held
  | cons a actions ih => exact (act_moves s a).trans (ih (s.act a))

/-- In every run, each text that is taken out of the buffer is still held, or was handed to a snippet
engine or put back, once, unless another item was accepted while it was held. Nothing else is lost. -/
theorem takenText_accounted (setup : Setup) (actions : List Action) (lost : List Expansion) :
    Accounted none (setup.session.after actions).moves (setup.session.after actions).held lost ↔
      lost = overridden setup.session actions := by
  obtain ⟨moves, hm, ha⟩ := after_moves setup.session actions
  have h0 : setup.session.moves = [] := rfl
  rw [h0, List.nil_append] at hm
  rw [hm]
  exact ⟨fun h => h.unique ha, fun h => h ▸ ha⟩

/-- Text is lost if a second item is accepted before the server has resolved the first one. -/
example :
    let setup : Setup :=
      { config := {}, uri := "file:///a", lines := [['f', 'o', 'o', ')']], cursor := ⟨0, 3⟩,
        missing := [], signatureView := false, snippets := [⟨"engine", true⟩],
        matcher := ⟨fun _ _ => true⟩, commands := none, cancellable := true }
    let accept (item : Item) : Action :=
      .perform ⟨.completeDone (.given (.ofPayload ⟨⟨1⟩, item⟩ false 0)), rfl⟩
    (overridden setup.session
      [.perform ⟨.attach ⟨1⟩ { completion := some { resolves := true } } {}, rfl⟩,
       .perform ⟨.setVisible true, rfl⟩, .perform ⟨.acceptPending, rfl⟩,
       accept { label := "foo", insertText := some "foo($1)", insertTextFormat := some 2 },
       accept { label := "bar" }]).map (·.literal) = [['f', 'o', 'o', ')']] := by
  decide +kernel

end Session
end Autocomplete

import Autocomplete.Proofs.Session.Telling

/-! What is published about rounds of completion. A round is opened and given up with one event each;
when it ends with its answers, the failures come first and then the results. All other changes are
tacit. -/
namespace Autocomplete

/-- The round that is published about. -/
def Observation.round? : Observation → Option RequestId
  | .event e => e.requestId?
  | _ => none

theorem Observation.round?_eq_none {o : Observation} (hp : o.kind ≠ .plain) (ho : o.kind ≠ .opened)
    (hg : o.kind ≠ .givenUp) : o.round? = none := by
  cases o with
  | event e =>
    cases e with
    | requested => exact absurd rfl ho
    | cancelled => exact absurd rfl hg
    | _ => exact absurd rfl hp
  | _ => rfl

theorem Observation.Helping.round?_eq_none {o : Observation} (h : o.Helping) : o.round? = none := by
  cases h <;> rfl

namespace Session
open Observation

/-- All that was published. -/
def events (s : Session) : List Event := s.trace.filterMap event?

/-- Nothing is published about rounds. -/
abbrev Tacit : Session → Session → Prop := Tells (·.round? = none)

theorem Adds.tacit {kinds : List Kind} {s t : Session} (h : Adds kinds s t)
    (hp : Kind.plain ∉ kinds) (ho : Kind.opened ∉ kinds) (hg : Kind.givenUp ∉ kinds) :
    Tacit s t := by
  obtain ⟨obs, ht, hk⟩ := h
  refine ⟨obs, ht, fun o hm => round?_eq_none (fun he => hp ?_) (fun he => ho ?_) fun he => hg ?_⟩
  · exact he ▸ hk o hm
  · exact he ▸ hk o hm
  · exact he ▸ hk o hm

theorem quiet_events {obs : List Observation} (h : ∀ o ∈ obs, o.round? = none) :
    ∀ e ∈ obs.filterMap event?, e.requestId? = none := by
  intro e he
  obtain ⟨o, hm, ho⟩ := List.mem_filterMap.mp he
  cases o with
  | event d =>
    obtain rfl := Option.some.inj ho
    exact h _ hm
  | _ => cases ho

theorem Tacit.events {s t : Session} (h : Tacit s t) :
    ∃ more, t.events = s.events ++ more ∧ ∀ e ∈ more, e.requestId? = none := by
  obtain ⟨obs, ht, ho⟩ := h
  refine ⟨obs.filterMap event?, ?_, quiet_events ho⟩
  rw [Session.events, ht, List.filterMap_append, Session.events]

theorem Tells.events_eq {s t : Session} (h : Tells (·.event? = none) s t) : t.events = s.events := by
  obtain ⟨obs, ht, ho⟩ := h
  rw [events, ht, List.filterMap_append, List.filterMap_eq_nil_iff.mpr ho, List.append_nil, events]

theorem emit_events (s : Session) (e : Event) : (s.emit e).events = s.events ++ [e] :=
  List.filterMap_append

theorem report_tacit (s : Session) (severity : Severity) (message : String) :
    Tacit s (s.report severity message) := Tells.report s severity message (fun _ => rfl) rfl

theorem askAll_tacit (purpose : Purpose) (params : Session → Binding → Json) (bs : List Binding)
    (s : Session) : Tacit s (askAll purpose params s bs).1 := by
  induction bs generalizing s with
  | nil => exact .of_eq rfl
  | cons b bs ih =>
    have hs : Tacit s (s.send b.server purpose (params s b)).1 := .one (by rw [send_frame]) rfl
    exact hs.trans (ih _)

theorem openSignatureRound_tacit (s : Session) (trigger : Option Char) :
    Tacit s (s.openSignatureRound trigger) := by
  have ha := askAll_tacit .signatureHelp (fun s b => s.signatureParams trigger b)
    (s.bindings.values.filter (wantsSignature trigger)) s
  unfold openSignatureRound
  dsimp only
  split
  · exact ha
  · exact ha.trans (.one rfl rfl)

theorem takeSignature_tacit (s : Session) (server : ServerId) (reply : Reply) :
    Tacit s (s.takeSignature server reply) :=
  (Tells.takeSignature s server reply).mono fun _ => Helping.round?_eq_none

theorem detachFromSignature_tacit (s : Session) (server : ServerId) :
    Tacit s (s.detachFromSignature server) :=
  (Tells.detachFromSignature s server).mono fun _ => Helping.round?_eq_none

theorem attach_tacit (s : Session) (server : ServerId) (capabilities : Capabilities)
    (options : AttachOptions) : Tacit s (s.attach server capabilities options) := by
  unfold attach
  dsimp only
  split
  · exact Tells.trans (.one rfl rfl) (.one rfl rfl)
  · exact .one rfl rfl

/-- Of all changes, only those that begin or give up a round publish something about it. -/
theorem Change.tacit {s t : Session} (h : Change s t) :
    (∃ reason, t = s.giveUpRound reason) ∨
      (∃ trigger, s.round = none ∧ t = s.openRound trigger) ∨ Tacit s t := by
  cases h with
  | giveUpRound reason => exact .inl ⟨reason, rfl⟩
  | openRound trigger hs => exact .inr (.inl ⟨trigger, hs, rfl⟩)
  | logAll records => exact .inr (.inr (Tells.logAll s records fun _ => rfl))
  | report message => exact .inr (.inr (report_tacit s .warning message))
  | tell => exact .inr (.inr (.one rfl rfl))
  | edit => exact .inr (.inr (.one rfl rfl))
  | armCompletion => exact .inr (.inr (.one rfl rfl))
  | armSignatureHelp => exact .inr (.inr (.one rfl rfl))
  | registerCommand =>
    exact .inr (.inr ((Adds.registerCommand ..).tacit (by simp) (by simp) (by simp)))
  | cancelSignatureRound =>
    exact .inr (.inr ((Adds.cancelSignatureRound s).tacit (by simp) (by simp) (by simp)))
  | openSignatureRound trigger => exact .inr (.inr (openSignatureRound_tacit s trigger))
  | takeSignature place _ server reply =>
    have ht := takeSignature_tacit { s with queue := s.queue.eraseIdx place } server reply
    exact .inr (.inr ht)
  | sendCommand => exact .inr (.inr (.one (by rw [send_frame]) rfl))
  | answer => exact .inr (.inr (.of_eq (by rw [answer_frame])))
  | _ => exact .inr (.inr (.of_eq rfl))

/-- All other changes leave the round that is under way as it is. -/
theorem Change.round_step {s t : Session} (h : Change s t) :
    (∃ reason, t = s.giveUpRound reason) ∨
      (∃ trigger, s.round = none ∧ t = s.openRound trigger) ∨
      Adds [.plain, .cancel] s t ∧ Tacit s t ∧ t.round = s.round ∧ t.lastId = s.lastId := by
  rcases h.tacit with hg | ho | ht
  · exact .inl hg
  · exact .inr (.inl ho)
  · rcases h.round_cases with hg | ho | ⟨ha, hr, hi⟩
    · exact .inl hg
    · exact .inr (.inl ho)
    · exact .inr (.inr ⟨ha, ht, hr, hi⟩)

theorem TextChange.tacit {s t : Session} (h : TextChange s t) : Tacit s t := by
  cases h with
  | supersedeResolve =>
    unfold Session.supersedeResolve
    split
    next pending _ =>
      have hl : Tacit s
          { s.log .debug "accept" "Superseding pending resolve" with resolve := none } :=
        .one rfl rfl
      exact hl.trans ((Adds.cancel _ pending.number).tacit (by simp) (by simp) (by simp))
    · exact .of_eq rfl
  | removeInsertedWord => exact .one rfl rfl
  | sendResolve payload expansion =>
    have hs : Tacit s (s.send payload.server .resolve payload.item.encode).1 :=
      .one (by rw [send_frame]) rfl
    exact hs.trans (.one rfl rfl)
  | takeUp => exact .of_eq rfl
  | conclude => exact .one rfl rfl
  | expand e =>
    unfold Session.expand
    split
    · split
      · exact Tells.trans (.one rfl rfl) (.one rfl rfl)
      · exact (report_tacit ..).trans (.one rfl rfl)
    · exact .one rfl rfl

theorem report_events (s : Session) (severity : Severity) (message : String) :
    (s.report severity message).events = s.events :=
  Tells.events_eq (Tells.report s severity message (fun _ => rfl) rfl)

theorem reportFailure_events (id : RequestId) (s : Session) (f : ServerId × ResponseError) :
    (reportFailure id s f).events = s.events ++ [.requestFailed id f.1 f.2] := by
  unfold reportFailure
  dsimp only
  rw [emit_events]
  split
  · rfl
  · rw [report_events]

theorem reportFailures_events (id : RequestId) (failures : List (ServerId × ResponseError))
    (s : Session) : (failures.foldl (reportFailure id) s).events =
      s.events ++ failures.map fun f => .requestFailed id f.1 f.2 := by
  induction failures generalizing s with
  | nil => exact (List.append_nil _).symm
  | cons f rest ih =>
    rw [List.foldl_cons, ih, reportFailure_events, List.append_assoc]
    rfl

theorem present_events (s : Session) (c : Round) (merged : Merged) (roundTrip : Duration) :
    (s.present c merged roundTrip).events = s.events ++
      [.resultsShown c.id merged.startColumn merged.entries.length merged.isIncomplete
        roundTrip.milliseconds] := by
  unfold present
  extract_lets count t u v w
  have hu : Tells (·.event? = none) s u := .one rfl rfl
  have hv : Tells (·.event? = none) u w := .one rfl rfl
  rw [emit_events, (hu.trans hv).events_eq]

/-- When a round ends, either nothing is published, or all failures and perhaps its results are. -/
theorem finishRound_events (s : Session) (c : Round) :
    (s.finishRound c).events = s.events ∨
      ∃ shown, (s.finishRound c).events = s.events ++
          (MergeRequest.errors c.replies).map (fun f => .requestFailed c.id f.1 f.2) ++ shown ∧
        (shown = [] ∨ ∃ start count incomplete latency,
          shown = [.resultsShown c.id start count incomplete latency]) := by
  unfold finishRound
  extract_lets t about merged roundTrip u v w x
  have ht : Tells (·.event? = none) s t := .of_eq rfl
  have hv : v.events = s.events := (ht.trans (Tells.logAll t _ fun _ => rfl)).events_eq
  have hx : x.events = s.events ++
      (MergeRequest.errors c.replies).map fun f => .requestFailed c.id f.1 f.2 := by
    rw [← hv]
    exact reportFailures_events c.id merged.errors v
  split
  · exact .inl (ht.trans (.one rfl rfl)).events_eq
  · split
    · exact .inl (ht.trans (.one rfl rfl)).events_eq
    · right
      split
      · refine ⟨[], ?_, .inl rfl⟩
        rw [List.append_nil, ← hx]
        exact Tells.events_eq (.one rfl rfl)
      · have hp := present_events x c merged roundTrip
        rw [hx] at hp
        exact ⟨_, hp, .inr ⟨_, _, _, _, rfl⟩⟩

end Session
end Autocomplete

import Autocomplete.Proofs.Session.Dispatch
import Autocomplete.Proofs.Session.Outstanding
import Mathlib.Data.List.Induction

/-! Accepted items. An acceptance ends at once, or the item is held until its server has resolved it or
another item is accepted. Whatever ends it belongs to the item that is held, so that no acceptance ends
twice or with the data of another one. -/
namespace Autocomplete

/-- An item is accepted, or an acceptance ends. -/
inductive Deal where
  | accepted (payload : Payload)
  | ended (server : ServerId) (label : String)

def Observation.ended? : Observation → Option Deal
  | .event (.itemAccepted server label _) => some (.ended server label)
  | _ => none

theorem Observation.Ordinary.ended?_eq_none {o : Observation} (h : o.Ordinary) : o.ended? = none := by
  cases h with
  | preliminary h =>
    cases h with
    | routine h =>
      cases h with
      | @event e _ h =>
        cases e with
        | itemAccepted => cases h
        | _ => rfl
      | _ => rfl
    | _ => rfl
  | _ => rfl

theorem Observation.Helping.ended?_eq_none {o : Observation} (h : o.Helping) : o.ended? = none := by
  cases h <;> rfl

theorem Observation.filterMap_ended? {obs : List Observation} (h : ∀ o ∈ obs, o.Ordinary) :
    obs.filterMap ended? = [] :=
  List.filterMap_eq_nil_iff.mpr fun o ho => (h o ho).ended?_eq_none

/-- `Orderly held deals held'`: what ends is the acceptance of the item that is held, which is the one
that was accepted last. In the beginning the item `held` is held, and in the end `held'`. -/
inductive Orderly : Option Payload → List Deal → Option Payload → Prop where
  | done (held : Option Payload) : Orderly held [] held
  | accepted {old : Option Payload} {payload : Payload} {deals : List Deal} {held : Option Payload} :
      Orderly (some payload) deals held → Orderly old (.accepted payload :: deals) held
  | ended {payload : Payload} {deals : List Deal} {held : Option Payload} :
      Orderly none deals held →
        Orderly (some payload) (.ended payload.server payload.item.label :: deals) held

theorem Orderly.trans {a b c : Option Payload} {deals more : List Deal} (h : Orderly a deals b)
    (g : Orderly b more c) : Orderly a (deals ++ more) c := by
  induction h with
  | done => exact g
  | accepted _ ih => exact .accepted (ih g)
  | ended _ ih => exact .ended (ih g)

/-- The command that an answer brings for an item. -/
def resolvedCommand? : Reply → Option Command
  | .ok value =>
    match Item.decode value with
    | .ok item => item.command
    | .error _ => none
  | .error _ => none

namespace Session
open Observation

/-- What an action adds to the trace. -/
def news (s : Session) (a : Action) : List Observation := (s.act a).trace.drop s.trace.length

/-- The entry that is accepted by an action. -/
def accepted? (s : Session) : Action → Option Match
  | .perform ⟨.completeDone selection, _⟩ =>
    if s.suppressDone then none else s.selected? selection
  | _ => none

/-- The answer for an accepted item that is handled by an action, if the session still cares for it. -/
def resolution? (s : Session) : Action → Option (Nat × ServerId × Reply)
  | .deliver place =>
    match s.queue[place]? with
    | some (.reply n server .resolve reply) =>
      if s.isLive (.reply n server .resolve reply) then some (n, server, reply) else none
    | _ => none
  | _ => none

def deal (s : Session) (a : Action) : List Deal :=
  ((s.accepted? a).map fun m => .accepted m.payload).toList ++ (s.news a).filterMap ended?

/-- Which items are accepted during a run, and which acceptances end. -/
def deals : Session → List Action → List Deal
  | _, [] => []
  | s, a :: rest => s.deal a ++ deals (s.act a) rest

/-- No acceptance ends between two states. -/
abbrev EndsNone : Session → Session → Prop := Tells (·.ended? = none)

/-- What is told of the command that comes with an accepted item. -/
def Dispatched (s : Session) (notices : List String) (server : ServerId) :
    Option Command → List Observation → Prop
  | some command, obs => Routed s notices server command obs
  | none, obs => obs = []

/-- An acceptance ends. This is published once, and then comes its command. Before that its server may
edit the text, on a condition. -/
inductive Concludes (editable : Prop) (s t : Session) (payload : Payload)
    (command : Option Command) : Prop where
  | intro (before after : List Observation) (expanded : Bool)
      (hb : ∀ o ∈ before, o.Preliminary editable)
      (ha : Dispatched s ((s.trace ++ before).filterMap notice?) payload.server command after)
      (ht : t.trace = s.trace ++ (before ++
        .event (.itemAccepted payload.server payload.item.label expanded) :: after))

/-- An action accepts an entry, and then its server is asked for the missing parts, while the buffer has
the edit count that is kept. -/
structure AsksFor (s : Session) (a : Action) (m : Match) (p : PendingResolve) : Prop where
  accepted : s.accepted? a = some m
  payload : p.payload = m.payload
  held : (s.act a).resolve = some p
  tick : (s.act a).buffer.tick = p.tick
  told : ∃ before r, (∀ o ∈ before, o.Preliminary True) ∧ (s.act a).trace = s.trace ++
    (before ++ [.call (.request p.number m.server .resolve m.item.encode), .log r])

/-- What an action has to do with accepted items. -/
inductive AcceptStep (s : Session) (a : Action) : Prop where
  /-- Nothing. -/
  | aside (ha : s.accepted? a = none) (hr : s.resolution? a = none)
      (hn : EndsNone s (s.act a)) (held : (s.act a).resolve = s.resolve)
  /-- An item is accepted, and nothing is missing of it. -/
  | ended {m : Match} (ha : s.accepted? a = some m)
      (hc : Concludes True s (s.act a) m.payload m.item.command) (held : (s.act a).resolve = none)
  | asked {m : Match} {p : PendingResolve} (h : s.AsksFor a m p)
  /-- The item that is held is resolved. -/
  | resolved {p : PendingResolve} {reply : Reply} (hp : s.resolve = some p)
      (hr : s.resolution? a = some (p.number, p.payload.server, reply))
      (hc : Concludes (s.buffer.tick = p.tick) s (s.act a) p.payload
        (resolvedCommand? reply <|> p.payload.item.command))
      (held : (s.act a).resolve = none)

/-- Nothing happens but what may come before the end of an acceptance. -/
structure Readies (editable : Prop) (s t : Session) : Prop where
  tells : Tells (Preliminary editable) s t
  bindings : t.bindings = s.bindings
  commands : t.commands = s.commands
  candid : Candid s → Candid t

namespace Readies

variable {editable : Prop} {s t u : Session}

theorem trans (h : Readies editable s t) (g : Readies editable t u) : Readies editable s u :=
  ⟨h.tells.trans g.tells, g.bindings.trans h.bindings, g.commands.trans h.commands,
    fun hs => g.candid (h.candid hs)⟩

theorem log (s : Session) (level : Level) (area message : String) (fields : List (String × Json)) :
    Readies editable s (s.log level area message fields) :=
  ⟨(Tells.log s level area message fields).preliminary, rfl, rfl, (Change.log ..).candid⟩

theorem warn (s : Session) (message : String) : Readies editable s (s.report .warning message) :=
  ⟨Tells.warn s message, by rw [report_frame], by rw [report_frame]; rfl,
    (Change.report s message).candid⟩

theorem reset (s : Session) (reason : CancelReason) : Readies editable s (s.reset reason) := by
  refine ⟨(Tells.reset s reason).preliminary, ?_, ?_,
    Evolves.candid (reset_quiet s reason).evolves⟩
  · simp only [Session.reset, cancelSignatureHelp]
    rw [giveUpRound_frame, cancelSignatureRound_frame]
    rfl
  · simp only [Session.reset, cancelSignatureHelp, Session.commands]
    rw [giveUpRound_frame, cancelSignatureRound_frame]
    rfl

theorem supersedeResolve (s : Session) : Readies editable s s.supersedeResolve :=
  ⟨(Tells.supersedeResolve s).preliminary, by rw [supersedeResolve_frame],
    by rw [supersedeResolve_frame]; rfl, (TextChange.supersedeResolve s).candid⟩

theorem prepareExpansion (s : Session) (expand : Bool) (m : Match) :
    Readies editable s (s.prepareExpansion expand m).1 := by
  unfold Session.prepareExpansion
  split
  · exact ⟨.of_eq rfl, rfl, rfl, id⟩
  · split
    · exact ⟨.one rfl (.edit _ _ _ _ nofun), rfl, rfl, (TextChange.removeInsertedWord ..).candid⟩
    · exact warn s _

theorem applyEdits (he : editable) (s : Session) (server : ServerId) (edits : List TextEdit) :
    Readies editable s (s.applyEdits server edits) := by
  have hf := s.applyEdits_frame server edits
  have hq := (applyEdits_quiet s server edits).evolves
  refine ⟨?_, by rw [hf], by rw [hf]; rfl, Evolves.candid hq⟩
  have each (encoding : Encoding) (es : List TextEdit) (t : Session) :
      Tells (Preliminary editable) t (es.foldl (applyEdit encoding) t) := by
    induction es generalizing t with
    | nil => exact .of_eq rfl
    | cons e es ih =>
      have ht : Tells (Preliminary editable) t (applyEdit encoding t e) :=
        .one rfl (.edit _ _ _ _ fun _ => he)
      exact ht.trans (ih _)
  exact each _ _ s

theorem expand (s : Session) (e : Expansion) : Readies editable s (s.expand e).1 :=
  ⟨Tells.expand s e, by rw [expand_frame], by rw [expand_frame]; rfl,
    (TextChange.expand s e).candid⟩

/-- The edits that an answer brings need the buffer to be as it was. -/
theorem applyResolved (s : Session) (p : PendingResolve) (reply : Reply) :
    Readies (s.buffer.tick = p.tick) s (s.applyResolved p reply).1 := by
  unfold Session.applyResolved
  dsimp only
  split
  · split
    · dsimp only
      split
      · exact log ..
      · split
        next ht => exact applyEdits ht s _ _
        next => exact log ..
    · exact warn s _
  · split
    · exact ⟨.of_eq rfl, rfl, rfl, id⟩
    · exact warn s _

end Readies

theorem applyResolved_command (s : Session) (p : PendingResolve) (reply : Reply) :
    (s.applyResolved p reply).2 = resolvedCommand? reply := by
  unfold applyResolved resolvedCommand?
  cases reply with
  | ok value =>
    dsimp only
    cases Item.decode value <;> rfl
  | error e =>
    dsimp only
    split <;> rfl

section
variable {editable : Prop} {s t : Session}

theorem concludeAccept_concludes (hs : Candid s) (h : Readies editable s t) (payload : Payload)
    (resolved : Option Command) (expanded : Bool) :
    Concludes editable s (t.concludeAccept payload resolved expanded) payload
      (resolved <|> payload.item.command) := by
  unfold concludeAccept
  extract_lets u v
  have hu : Readies editable s u := h.trans (.log t ..)
  obtain ⟨before, htrace, hb⟩ := hu.tells
  have hv : v.trace = (s.trace ++ before) ++
      [.event (.itemAccepted payload.server payload.item.label expanded)] := by rw [← htrace]; rfl
  have hnotices : v.notices = (s.trace ++ before).filterMap notice? := by
    rw [notices, hv, List.filterMap_append]
    exact List.append_nil _
  have hcandid : Candid v := (hu.candid hs).keep (.one rfl rfl) rfl
  have hbind : v.bindings = s.bindings := hu.bindings
  have hcomm : v.commands = s.commands := hu.commands
  clear_value v
  cases hc : resolved <|> payload.item.command with
  | some command =>
    obtain ⟨after, ht, hr⟩ := executeCommand_routed hcandid payload.server command
    refine ⟨before, after, expanded, hb, hnotices ▸ hr.congr hbind hcomm, ?_⟩
    rw [ht, hv]
    simp only [List.append_assoc, List.cons_append, List.nil_append]
  | none => exact ⟨before, [], expanded, hb, rfl, by rw [hv, List.append_assoc]⟩

theorem finishAccept_concludes (hs : Candid s) (h : Readies editable s t) (payload : Payload)
    (resolved : Option Command) (expansion : Option Expansion) :
    Concludes editable s (t.finishAccept payload resolved expansion) payload
      (resolved <|> payload.item.command) := by
  cases expansion with
  | none => exact concludeAccept_concludes hs h payload resolved false
  | some e => exact concludeAccept_concludes hs (h.trans (.expand t e)) payload resolved _

/-- After its request nothing comes of an item that is asked about, but that this is logged. -/
theorem sendResolve_told (h : Readies editable s t) (payload : Payload)
    (expansion : Option Expansion) :
    ∃ p, p.payload = payload ∧ (t.sendResolve payload expansion).resolve = some p ∧
      (t.sendResolve payload expansion).buffer.tick = p.tick ∧
      ∃ before r, (∀ o ∈ before, o.Preliminary editable) ∧
        (t.sendResolve payload expansion).trace = s.trace ++ (before ++
          [.call (.request p.number payload.server .resolve payload.item.encode), .log r]) := by
  obtain ⟨before, ht, hb⟩ := h.tells
  let p : PendingResolve :=
    { number := (t.send payload.server .resolve payload.item.encode).2, payload, expansion,
      tick := (t.sendResolve payload expansion).buffer.tick }
  obtain ⟨r, hr⟩ : ∃ r, (t.sendResolve payload expansion).trace =
      (t.send payload.server .resolve payload.item.encode).1.trace ++ [.log r] := ⟨_, rfl⟩
  refine ⟨p, rfl, rfl, rfl, before, r, hb, ?_⟩
  have hn : p.number = t.requests.length := (t.send_eq payload.server .resolve _).1
  rw [hr, send_frame, hn, ht]
  simp only [List.append_assoc, List.cons_append, List.nil_append]
  rfl

end

theorem finishAccept_resolve (s : Session) (payload : Payload) (resolved : Option Command)
    (expansion : Option Expansion) :
    (s.finishAccept payload resolved expansion).resolve = s.resolve :=
  (finishAccept_moves s payload resolved expansion).2

/-- The acceptance of an entry ends, or its server is asked for the missing parts. -/
theorem acceptMatch_cases {s : Session} (hs : Candid s) (m : Match) :
    Concludes True s (s.acceptMatch m) m.payload m.item.command ∧ (s.acceptMatch m).resolve = none ∨
      ∃ p, p.payload = m.payload ∧ (s.acceptMatch m).resolve = some p ∧
        (s.acceptMatch m).buffer.tick = p.tick ∧
        ∃ before r, (∀ o ∈ before, o.Preliminary True) ∧
          (s.acceptMatch m).trace = s.trace ++ (before ++
            [.call (.request p.number m.server .resolve m.item.encode), .log r]) := by
  have hreset : Readies True s (s.reset .accepted) := .reset s .accepted
  have hready := (hreset.trans (.supersedeResolve _)).trans (.prepareExpansion _ s.expandSnippet m)
  have hres : ((s.reset .accepted).supersedeResolve.prepareExpansion s.expandSnippet m).1.resolve =
      none := by rw [prepareExpansion_frame, supersedeResolve_frame]
  unfold acceptMatch
  generalize (s.reset .accepted).supersedeResolve.prepareExpansion s.expandSnippet m = result at *
  obtain ⟨t, expansion⟩ := result
  dsimp only at hready hres ⊢
  have finish {u : Session} (hu : Readies True s u) (hn : u.resolve = none) :
      Concludes True s (u.finishAccept m.payload none expansion) m.payload m.item.command ∧
        (u.finishAccept m.payload none expansion).resolve = none :=
    ⟨finishAccept_concludes hs hu m.payload none expansion, by rw [finishAccept_resolve, hn]⟩
  unfold supplyEdits
  split
  next edit edits _ =>
    have hedits := Readies.applyEdits trivial t m.server (edit :: edits)
    exact .inl (finish (hready.trans hedits) (by rw [applyEdits_frame, hres]))
  next =>
    split
    · exact .inr (sendResolve_told hready m.payload expansion)
    · exact .inl (finish hready hres)

/-- The answer for the item that is held ends its acceptance. -/
theorem takeResolved_concludes {s : Session} (hs : Candid s) {p : PendingResolve}
    (hp : s.resolve = some p) (place : Nat) (reply : Reply) :
    let t := { s with queue := s.queue.eraseIdx place }.takeResolved reply
    Concludes (s.buffer.tick = p.tick) s t p.payload
      (resolvedCommand? reply <|> p.payload.item.command) ∧ t.resolve = none := by
  intro t
  let u : Session := { s with queue := s.queue.eraseIdx place, resolve := none }
  have ht : t = (u.applyResolved p reply).1.finishAccept p.payload (resolvedCommand? reply)
      p.expansion := by
    rw [← applyResolved_command u p reply]
    simp only [t, u, takeResolved, hp]
  have hu : Readies (s.buffer.tick = p.tick) s u :=
    ⟨.of_eq rfl, rfl, rfl, fun h => h.keep (.of_eq rfl) rfl⟩
  have hready : Readies (s.buffer.tick = p.tick) s (u.applyResolved p reply).1 :=
    hu.trans (.applyResolved u p reply)
  rw [ht]
  refine ⟨finishAccept_concludes hs hready p.payload _ p.expansion, ?_⟩
  rw [finishAccept_resolve, applyResolved_frame]

theorem Tells.endsNone {s t : Session} (h : Tells Ordinary s t) : EndsNone s t :=
  h.mono fun _ => Ordinary.ended?_eq_none

theorem detach_endsNone (s : Session) (server : ServerId) : EndsNone s (s.detach server) := by
  unfold detach
  split
  · extract_lets t
    have ht : EndsNone s t := .one rfl rfl
    have hs : EndsNone t (t.detachFromSignature server) :=
      (Tells.detachFromSignature t server).mono fun _ => Helping.ended?_eq_none
    have hr := (Tells.detachFromRound (t.detachFromSignature server) server).mono
      fun _ => Reporting.ordinary
    exact (ht.trans hs).trans hr.endsNone
  · exact .of_eq rfl

theorem Quiet.endsNone {s t : Session} (h : Quiet s t) : EndsNone s t := by
  induction h with
  | refl => exact .of_eq rfl
  | @tail t u _ hc ih =>
    refine ih.trans ?_
    rcases hc.tells with hc | ⟨place, _, server, reply, _, _, rfl⟩
    · exact hc.endsNone
    · exact (Tells.takeSignature { t with queue := t.queue.eraseIdx place } server reply).mono
        fun _ => Helping.ended?_eq_none

theorem RoundChange.endsNone {s t : Session} (h : RoundChange s t) : EndsNone s t := by
  cases h with
  | attach server capabilities options =>
    exact (attach_tells s server capabilities options).ordinary.endsNone
  | detach server => exact detach_endsNone s server
  | takeCompletion place _ server id reply =>
    have ht := Tells.takeCompletion { s with queue := s.queue.eraseIdx place } id server reply
    exact Tells.endsNone (ht.mono fun _ => Reporting.ordinary)

theorem resolution?_eq_some {s : Session} {place n : Nat} {server : ServerId} {reply : Reply} :
    s.resolution? (.deliver place) = some (n, server, reply) ↔
      s.queue[place]? = some (.reply n server .resolve reply) ∧
        s.isLive (.reply n server .resolve reply) = true := by
  unfold resolution?
  dsimp only
  constructor
  · intro h
    split at h
    next hm =>
      split at h
      next hl =>
        cases h
        exact ⟨hm, hl⟩
      next => cases h
    next => cases h
  · rintro ⟨hm, hl⟩
    rw [hm]
    dsimp only
    rw [if_pos hl]

theorem completeDone_acceptStep {s : Session} (h : Candid s) (selection : Selection) :
    AcceptStep s (.perform ⟨.completeDone selection, rfl⟩) := by
  have done {t : Session} (h : s.completeDone (s.selected? selection) = t) :
      s.act (.perform ⟨.completeDone selection, rfl⟩) = t := h
  have aside {t : Session} (hact : s.act (.perform ⟨.completeDone selection, rfl⟩) = t)
      (ha : s.accepted? (.perform ⟨.completeDone selection, rfl⟩) = none) (hq : Quiet s t) :
      AcceptStep s (.perform ⟨.completeDone selection, rfl⟩) := by
    subst hact
    exact .aside ha rfl (Quiet.endsNone hq) (Quiet.resolve_eq hq)
  unfold completeDone at done
  by_cases hd : s.suppressDone = true
  · rw [if_pos hd] at done
    exact aside (done rfl) (if_pos hd) ((Change.swallowDone s).quiet.tail (.log ..))
  · rw [if_neg hd] at done
    have ha : s.accepted? (.perform ⟨.completeDone selection, rfl⟩) = s.selected? selection :=
      if_neg hd
    cases hs : s.selected? selection with
    | none =>
      rw [hs] at done
      exact aside (done rfl) (ha.trans hs) (reset_quiet s .dismissed)
    | some m =>
      rw [hs] at done
      have hm : s.act (.perform ⟨.completeDone selection, rfl⟩) = s.acceptMatch m := done rfl
      rcases acceptMatch_cases h m with ⟨hc, hn⟩ | ⟨p, hp, hr, ht, before, r, hb, htold⟩
      · exact .ended (ha.trans hs) (hm ▸ hc) (hm ▸ hn)
      · exact .asked ⟨ha.trans hs, hp, hm ▸ hr, hm ▸ ht, before, r, hb, hm ▸ htold⟩

/-- The answer that is handled is the one for the item that is held. -/
theorem Remembers.resolution {s : Session} (h : Remembers s) {place n : Nat} {server : ServerId}
    {reply : Reply} (hr : s.resolution? (.deliver place) = some (n, server, reply)) :
    ∃ p, s.resolve = some p ∧ p.number = n ∧ p.payload.server = server := by
  obtain ⟨hm, hl⟩ := resolution?_eq_some.mp hr
  obtain ⟨r, ho, rfl, hp, _⟩ := h.outstanding_of_live hm hl
  obtain ⟨p, hp, hs, hn⟩ := h.resolve n r ho hp
  exact ⟨p, hp, hn, hs⟩

theorem Remembers.acceptStep {s : Session} (h : Remembers s) (hs : Candid s) (a : Action) :
    AcceptStep s a := by
  have aside (ha : s.accepted? a = none) (hr : s.resolution? a = none)
      (hq : Quiet s (s.act a) ∨ RoundChange s (s.act a)) : AcceptStep s a := by
    rcases hq with hq | hc
    · exact .aside ha hr (Quiet.endsNone hq) (Quiet.resolve_eq hq)
    · exact .aside ha hr hc.endsNone hc.resolve_eq
  cases a with
  | perform o =>
    obtain ⟨o, ho⟩ := o
    by_cases hc : ∃ selection, o = .completeDone selection
    · obtain ⟨selection, rfl⟩ := hc
      exact completeDone_acceptStep hs selection
    · have ha : s.accepted? (.perform ⟨o, ho⟩) = none := by
        unfold accepted?
        split
        next selection _ he =>
          cases he
          exact absurd ⟨selection, rfl⟩ hc
        next => rfl
      refine aside ha rfl ?_
      rcases perform_cases s ⟨o, ho⟩ with hq | ⟨server, capabilities, options, rfl⟩ | ⟨server, rfl⟩ |
        hd
      · exact .inl hq
      · exact .inr (.attach s server capabilities options)
      · exact .inr (.detach s server)
      · exact absurd hd hc
  | deliver place =>
    cases hr : s.resolution? (.deliver place) with
    | some resolution =>
      obtain ⟨n, server, reply⟩ := resolution
      obtain ⟨p, hp, rfl, rfl⟩ := h.resolution hr
      obtain ⟨hm, hl⟩ := resolution?_eq_some.mp hr
      have hact : s.act (.deliver place) =
          { s with queue := s.queue.eraseIdx place }.takeResolved reply := by
        change s.deliver place = _
        unfold deliver
        rw [hm]
        exact if_pos hl
      obtain ⟨hc, hn⟩ := takeResolved_concludes hs hp place reply
      exact .resolved hp hr (hact ▸ hc) (hact ▸ hn)
    | none =>
      refine aside rfl hr ?_
      rcases deliver_cases s place with hq | ⟨n, server, id, reply, hm, hl, hd⟩ |
        ⟨n, server, reply, hm, hl, _⟩
      · exact .inl hq
      · right
        change RoundChange s (s.deliver place)
        rw [hd]
        exact .takeCompletion s place n server id reply hm hl
      · rw [resolution?_eq_some.mpr ⟨hm, hl⟩] at hr
        cases hr

theorem Dispatched.ordinary {s : Session} {notices : List String} {server : ServerId}
    {command : Option Command} {obs : List Observation}
    (h : Dispatched s notices server command obs) (o : Observation) (ho : o ∈ obs) :
    o.Ordinary := by
  cases command with
  | some command => exact Routed.ordinary h o ho
  | none =>
    rw [show obs = [] from h] at ho
    cases ho

theorem news_eq {s : Session} {a : Action} {obs : List Observation}
    (h : (s.act a).trace = s.trace ++ obs) : s.news a = obs := by
  rw [news, h, List.drop_left]

/-- When an acceptance ends, this is published once. -/
theorem Concludes.ended {editable : Prop} {s : Session} {a : Action} {payload : Payload}
    {command : Option Command} (h : Concludes editable s (s.act a) payload command) :
    (s.news a).filterMap ended? = [.ended payload.server payload.item.label] := by
  obtain ⟨before, after, expanded, hb, ha, ht⟩ := h
  have hbefore : before.filterMap ended? = [] := filterMap_ended? fun o ho => (hb o ho).ordinary
  have hafter : after.filterMap ended? = [] := filterMap_ended? ha.ordinary
  rw [news_eq ht, List.filterMap_append, List.filterMap_cons, hbefore, hafter]
  rfl

theorem AcceptStep.orderly {s : Session} {a : Action} (h : AcceptStep s a) :
    Orderly (s.resolve.map (·.payload)) (s.deal a) ((s.act a).resolve.map (·.payload)) := by
  unfold deal
  cases h with
  | aside ha hr hn held =>
    obtain ⟨obs, ht, ho⟩ := hn
    rw [ha, held, news_eq ht, List.filterMap_eq_nil_iff.mpr ho]
    exact .done _
  | ended ha hc held =>
    rw [ha, held, hc.ended]
    exact .accepted (.ended (.done none))
  | @asked m p h =>
    obtain ⟨before, r, hb, ht⟩ := h.told
    have hbefore : before.filterMap ended? = [] := filterMap_ended? fun o ho => (hb o ho).ordinary
    rw [h.accepted, h.held, news_eq ht, List.filterMap_append, hbefore, Option.map_some,
      Option.map_some, h.payload]
    exact .accepted (.done _)
  | resolved hp hr hc held =>
    have ha : s.accepted? a = none := by
      cases a with
      | perform => cases hr
      | deliver => rfl
    rw [ha, hp, held, hc.ended]
    exact .ended (.done none)

theorem deals_concat (s : Session) (actions : List Action) (a : Action) :
    deals s (actions ++ [a]) = deals s actions ++ (s.after actions).deal a := by
  induction actions generalizing s with
  | nil => exact List.append_nil _
  | cons b actions ih =>
    rw [List.cons_append, deals, ih, ← List.append_assoc]
    rfl

theorem after_acceptStep (setup : Setup) (actions : List Action) (a : Action) :
    AcceptStep (setup.session.after actions) a :=
  (after_remembers setup actions).acceptStep (after_candid setup actions) a

theorem after_orderly (setup : Setup) (actions : List Action) :
    Orderly none (deals setup.session actions)
      ((setup.session.after actions).resolve.map (·.payload)) := by
  induction actions using List.reverseRecOn with
  | nil => exact .done none
  | append_singleton actions a ih =>
    rw [deals_concat, after_concat]
    exact ih.trans (after_acceptStep setup actions a).orderly

/-- The item that is held was accepted by an action that asked for its missing parts. -/
theorem after_held (setup : Setup) (actions : List Action) {p : PendingResolve}
    (hp : (setup.session.after actions).resolve = some p) :
    ∃ past a m later, actions = past ++ a :: later ∧
      (setup.session.after past).AsksFor a m p := by
  induction actions using List.reverseRecOn with
  | nil => cases hp
  | append_singleton actions a ih =>
    rw [after_concat] at hp
    cases after_acceptStep setup actions a with
    | aside _ _ _ held =>
      obtain ⟨past, b, m, later, rfl, h⟩ := ih (held ▸ hp)
      exact ⟨past, b, m, later ++ [a], by simp, h⟩
    | ended _ _ held => cases held.symm.trans hp
    | @asked m q h =>
      obtain rfl := Option.some.inj (h.held.symm.trans hp)
      exact ⟨actions, a, m, [], rfl, h⟩
    | resolved _ _ _ held => cases held.symm.trans hp

/-- In every run, the acceptance of an item ends at most once, with the item's own data and before any
other item is accepted. It is then published, and its command goes one way. An answer that is still
cared for is the one for the item that is held, and it edits the text only if the buffer is as it was
when the answer was asked for. -/
theorem acceptances_orderly (setup : Setup) (actions : List Action) :
    let s := setup.session.after actions
    Orderly none (deals setup.session actions) (s.resolve.map (·.payload)) ∧
      (∀ a, AcceptStep s a) ∧
      ∀ p, s.resolve = some p → ∃ past a m later, actions = past ++ a :: later ∧
        (setup.session.after past).AsksFor a m p :=
  ⟨after_orderly setup actions, after_acceptStep setup actions,
    fun _ hp => after_held setup actions hp⟩

/-- An acceptance does not end after another item was accepted. -/
example :
    let setup : Setup :=
      { config := {}, uri := "file:///a", lines := [['x']], cursor := ⟨0, 1⟩, missing := [],
        signatureView := false, snippets := [], matcher := ⟨fun _ _ => true⟩, commands := none,
        cancellable := true }
    let accept (label : String) : Action :=
      .perform ⟨.completeDone (.given (.ofPayload ⟨⟨1⟩, { label }⟩ false 0)), rfl⟩
    let respond (n : Nat) : Action := .perform ⟨.respond (.number n) (.ok .null), rfl⟩
    (deals setup.session
      [.perform ⟨.attach ⟨1⟩ { completion := some { resolves := true } } {}, rfl⟩,
       accept "first", respond 0, accept "second", respond 1, .deliver 0, .deliver 0]).filterMap
      (fun | .ended _ label => some label | _ => none) = ["second"] := by
  decide +kernel

end Session
end Autocomplete

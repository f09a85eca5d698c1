import Autocomplete.Proofs.Session.Problems

/-! Signature help is shown once in a round, that of the first server which has any. The answers are
looked at in the order of the servers as soon as the last one is there, so that it does not matter in
which order they have come. An answer without help hides none that comes after it, and help that is
shown hides no error. -/
namespace Autocomplete

/-- The help that an answer brings, if it has a signature. -/
def Reply.help? : Reply → Option SignatureHelp
  | .error _ => none
  | .ok value =>
    match Decoder.nullable SignatureHelp.decode value with
    | .ok (some help) => if help.signatures.isEmpty then none else some help
    | _ => none

/-- The first help among some answers, with its server. -/
def firstHelp? (answers : List (ServerId × Reply)) : Option (ServerId × SignatureHelp) :=
  answers.findSome? fun (server, reply) => reply.help?.map (server, ·)

theorem firstHelp?_cons (server : ServerId) (reply : Reply) (rest : List (ServerId × Reply)) :
    firstHelp? ((server, reply) :: rest) =
      (reply.help?.map (server, ·)).or (firstHelp? rest) := by
  rw [firstHelp?, List.findSome?_cons]
  dsimp only
  cases reply.help? <;> rfl

/-- Among the answers of several servers, the lowest server with help counts. -/
theorem firstHelp?_eq_some_iff (replies : ServerMap Reply) (server : ServerId)
    (help : SignatureHelp) : firstHelp? replies.entries = some (server, help) ↔
      (∃ reply, replies.find? server = some reply ∧ reply.help? = some help) ∧
        ∀ x reply, x < server → replies.find? x = some reply → reply.help? = none := by
  simp only [Table.find?_eq_some_iff]
  have hsorted := replies.ascending
  rw [firstHelp?, List.findSome?_eq_some_iff]
  constructor
  · rintro ⟨before, ⟨y, reply⟩, after, he, hf, hnone⟩
    obtain ⟨h, hh, heq⟩ := Option.map_eq_some_iff.mp hf
    obtain ⟨rfl, rfl⟩ := Prod.mk.inj heq
    refine ⟨⟨reply, by simp [he], hh⟩, fun x r hlt hm => ?_⟩
    rw [he] at hm hsorted
    rcases List.mem_append.mp hm with hm | hm
    · exact Option.map_eq_none_iff.mp (hnone _ hm)
    · -- No server from this one on comes before it.
      have hle : ∀ e ∈ (y, reply) :: after, ¬ e.1 < y := by
        intro e hm hlt
        rcases List.mem_cons.mp hm with rfl | hm
        · exact Std.lt_irrefl hlt
        · have hy := (List.pairwise_cons.mp (List.pairwise_append.mp hsorted).2.1).1 e hm
          exact Std.lt_irrefl (Std.lt_trans hlt hy)
      exact absurd hlt (hle _ hm)
  · rintro ⟨⟨reply, hm, hh⟩, hnone⟩
    obtain ⟨before, after, he⟩ := List.append_of_mem hm
    refine ⟨before, _, after, he, congrArg (Option.map _) hh, fun e hb => ?_⟩
    rw [he] at hsorted
    have hlt := (List.pairwise_append.mp hsorted).2.2 e hb _ List.mem_cons_self
    exact Option.map_eq_none_iff.mpr (hnone e.1 e.2 hlt (by simp [he, hb]))

theorem firstHelp?_eq_none_iff (replies : ServerMap Reply) : firstHelp? replies.entries = none ↔
    ∀ server reply, replies.find? server = some reply → reply.help? = none := by
  simp only [Table.find?_eq_some_iff, firstHelp?, List.findSome?_eq_none_iff,
    Option.map_eq_none_iff, Prod.forall]

/-- Whether signature help is shown, or this is published. -/
def Observation.isHelp : Observation → Bool
  | .call (.signature ..) => true
  | .event (.signatureHelpShown ..) => true
  | _ => false

/-- What is told of help that is shown. -/
def helpTold : Option (ServerId × SignatureHelp) → List Observation
  | none => []
  | some (server, help) => [.call (.signature server help),
      .event (.signatureHelpShown server help.signatures.length)]

theorem Observation.Ordinary.isHelp_eq_false {o : Observation} (h : o.Ordinary) :
    o.isHelp = false := by
  cases h with
  | preliminary h =>
    cases h with
    | routine h =>
      cases h with
      | @event e _ he => cases e <;> first | rfl | cases he
      | _ => rfl
    | _ => rfl
  | _ => rfl

namespace Session
open Observation

/-- What was told of signature help that was shown. -/
def helpShown (s : Session) : List Observation := s.trace.filter isHelp

/-- From one state to the next, no signature help is shown. -/
abbrev Unhelped : Session → Session → Prop := Tells (·.isHelp = false)

theorem Unhelped.helpShown_eq {s t : Session} (h : Unhelped s t) : t.helpShown = s.helpShown := by
  obtain ⟨obs, ht, ho⟩ := h
  have hn : obs.filter isHelp = [] :=
    List.filter_eq_nil_iff.mpr fun o hm => by rw [ho o hm]; exact Bool.false_ne_true
  rw [helpShown, ht, List.filter_append, hn, List.append_nil, helpShown]

theorem Tells.unhelped {s t : Session} (h : Tells Ordinary s t) : Unhelped s t :=
  h.mono fun _ => Ordinary.isHelp_eq_false

/-- An answer is looked at: its help is shown, unless some was shown before. -/
theorem viewSignature_help {s : Session} (hv : s.signatureView = true) (shown : Bool)
    (server : ServerId) (reply : Reply) :
    (viewSignature (s, shown) (server, reply)).2 = (shown || reply.help?.isSome) ∧
      (viewSignature (s, shown) (server, reply)).1.helpShown =
        s.helpShown ++ if shown then [] else helpTold (reply.help?.map (server, ·)) := by
  have aside {t : Session} (h : Unhelped s t) : t.helpShown = s.helpShown ++ [] := by
    rw [h.helpShown_eq, List.append_nil]
  unfold viewSignature
  cases reply with
  | error e =>
    rw [show Reply.help? (.error e) = none from rfl, Option.isSome_none, Bool.or_false,
      Option.map_none, helpTold, ite_self]
    dsimp only
    split
    · exact ⟨rfl, aside (.of_eq rfl)⟩
    · exact ⟨rfl, aside (.report s .error _ (fun _ => rfl) rfl)⟩
  | ok value =>
    cases shown with
    | true => exact ⟨rfl, aside (.of_eq rfl)⟩
    | false =>
      dsimp only
      rw [Reply.help?]
      cases Decoder.nullable SignatureHelp.decode value with
      | error e => exact ⟨rfl, aside (.one rfl rfl)⟩
      | ok help =>
        cases help with
        | none => exact ⟨rfl, aside (.of_eq rfl)⟩
        | some help =>
          dsimp only
          rw [hv]
          cases help.signatures.isEmpty with
          | true => exact ⟨rfl, aside (.of_eq rfl)⟩
          | false =>
            refine ⟨rfl, ?_⟩
            change (s.trace ++ [_] ++ [_]).filter isHelp = s.trace.filter isHelp ++ _
            rw [List.append_assoc, List.filter_append]
            rfl

theorem viewSignatures_help (answers : List (ServerId × Reply)) {acc : Session × Bool}
    (hv : acc.1.signatureView = true) :
    (answers.foldl viewSignature acc).1.helpShown =
      acc.1.helpShown ++ if acc.2 then [] else helpTold (firstHelp? answers) := by
  induction answers generalizing acc with
  | nil => rw [firstHelp?, List.findSome?_nil, helpTold, ite_self, List.append_nil, List.foldl_nil]
  | cons answer rest ih =>
    obtain ⟨server, reply⟩ := answer
    obtain ⟨s, shown⟩ := acc
    obtain ⟨hshown, htold⟩ := viewSignature_help hv shown server reply
    have hview : (viewSignature (s, shown) (server, reply)).1.signatureView = true := by
      rw [viewSignature_frame]
      exact hv
    rw [List.foldl_cons, ih hview, hshown, htold, List.append_assoc, firstHelp?_cons]
    refine congrArg (s.helpShown ++ ·) ?_
    cases shown with
    | true => rfl
    | false => cases reply.help? <;> rfl

theorem finishSignatureRound_help {s : Session} (hv : s.signatureView = true)
    (hi : s.buffer.inserting = true) (g : SignatureRound) :
    (s.finishSignatureRound g).helpShown =
      s.helpShown ++ helpTold (firstHelp? g.replies.entries) := by
  have hview : ({ s with signatureRound := none } : Session).signatureView = true := hv
  unfold finishSignatureRound
  dsimp only
  rw [if_pos hi, viewSignatures_help _ hview]
  rfl

theorem Concludes.unhelped {editable : Prop} {s t : Session} {payload : Payload}
    {command : Option Command} (h : Concludes editable s t payload command) : Unhelped s t := by
  obtain ⟨before, after, expanded, hb, ha, ht⟩ := h
  refine ⟨_, ht, fun o ho => ?_⟩
  rcases List.mem_append.mp ho with ho | ho
  · exact (hb o ho).ordinary.isHelp_eq_false
  · rcases List.mem_cons.mp ho with rfl | ho
    · rfl
    · exact (ha.ordinary o ho).isHelp_eq_false

theorem completeDone_unhelped {s : Session} (hs : Candid s) (selected : Option Match) :
    Unhelped s (s.completeDone selected) := by
  unfold completeDone
  split
  · exact .one rfl rfl
  · cases selected with
    | none => exact (Tells.reset s .dismissed).ordinary.unhelped
    | some m =>
      rcases acceptMatch_cases hs m with ⟨hc, _⟩ | ⟨p, _, _, _, before, r, hb, ht⟩
      · exact hc.unhelped
      · refine ⟨_, ht, fun o ho => ?_⟩
        rcases List.mem_append.mp ho with ho | ho
        · exact (hb o ho).ordinary.isHelp_eq_false
        · simp only [List.mem_cons, List.not_mem_nil, or_false] at ho
          rcases ho with rfl | rfl <;> rfl

/-- A round that no longer waits for one of its servers is another one, or none. -/
theorem signatureRound_ne_of_erase {g d : SignatureRound} {server : ServerId} {n : Nat}
    (hn : g.pending.find? server = some n) (hd : d.pending = g.pending.erase server) :
    (if d.pending.isEmpty then none else some d) ≠ some g := by
  intro h
  split at h
  · cases h
  · obtain rfl := Option.some.inj h
    rw [hd, Table.find?_erase, if_pos rfl] at hn
    cases hn

theorem Advancing.detach_unhelped {s : Session} (h : Advancing s) {server : ServerId}
    (hg : (s.detach server).signatureRound = s.signatureRound) : Unhelped s (s.detach server) := by
  by_cases hb : s.bindings.contains server = true
  case neg =>
    rw [detach, if_neg hb]
    exact .of_eq rfl
  rcases (s.unbind server).detachFromSignature_cases server with ⟨he, _⟩ | ⟨g, n, hround, hn, _⟩
  · rw [detach_eq hb, he]
    have hu : Unhelped s (s.unbind server) := .one rfl rfl
    have hr := Tells.detachFromRound (s.unbind server) server
    exact hu.trans (Tells.unhelped (hr.mono fun _ => Reporting.ordinary))
  · have hs : s.signatureRound = some g := hround
    have hd := (h.detach_signatureRound hs hn).2
    rw [hg, hs] at hd
    exact absurd hd.symm (signatureRound_ne_of_erase hn rfl)

theorem Advancing.deliver_unhelped {s : Session} (h : Advancing s) (hs : Candid s) {place : Nat}
    (hg : (s.deliver place).signatureRound = s.signatureRound) : Unhelped s (s.deliver place) := by
  cases hm : s.queue[place]? with
  | none =>
    rw [deliver, hm]
    exact .of_eq rfl
  | some m =>
    let t : Session := { s with queue := s.queue.eraseIdx place }
    have ht : Unhelped s t := .of_eq rfl
    cases m with
    | timer kind serial =>
      rw [deliver_eq hm]
      unfold handle
      dsimp only
      split
      · exact ht.trans (timerElapsed_tells t kind).ordinary.unhelped
      · exact ht.trans (.one rfl rfl)
    | reply n server purpose reply =>
      cases purpose with
      | completion id =>
        rw [deliver_eq hm]
        unfold handle
        dsimp only
        split
        · have hr := Tells.takeCompletion t id server reply
          exact ht.trans (Tells.unhelped (hr.mono fun _ => Reporting.ordinary))
        · exact ht.trans (.one rfl rfl)
      | signatureHelp =>
        by_cases hl : s.isLive (.reply n server .signatureHelp reply) = true
        · obtain ⟨g, hround, hn, -, hd⟩ := h.deliver_signatureHelp hm hl
          rw [hg, hround] at hd
          exact absurd hd.symm (signatureRound_ne_of_erase hn rfl)
        · rw [deliver_eq hm, Bool.eq_false_iff.mpr hl]
          exact ht
      | resolve =>
        rw [deliver_eq hm]
        unfold handle
        dsimp only
        split
        · change Unhelped s (t.takeResolved reply)
          cases hp : s.resolve with
          | some p => exact (takeResolved_concludes hs hp place reply).1.unhelped
          | none =>
            have hn : t.resolve = none := hp
            rw [takeResolved, hn]
            exact ht
        · exact ht
      | command name =>
        rw [deliver_eq hm]
        cases reply with
        | ok => exact ht
        | error e => exact ht.trans (.report _ _ _ (fun _ => rfl) rfl)

/-- Whatever leaves the round as it is shows no signature help. -/
theorem Advancing.act_unhelped {s : Session} (h : Advancing s) (hs : Candid s) {a : Action}
    (hg : (s.act a).signatureRound = s.signatureRound) : Unhelped s (s.act a) := by
  cases a with
  | deliver place => exact h.deliver_unhelped hs hg
  | perform o =>
    obtain ⟨o, ho⟩ := o
    cases o with
    | detach server => exact h.detach_unhelped hg
    | completeDone selection => exact completeDone_unhelped hs _
    | _ =>
      have ht := perform_tells s ⟨_, ho⟩ (by simp) (by simp)
      exact Tells.unhelped (ht.mono fun _ ho => ho.1)

/-- The answers of a round of signature help are handled, one after the other. Anything else may happen
in between that leaves the round as it is. The session before the last answer and the one after it are
singled out. -/
inductive HandlesHelp : Session → List (ServerId × Reply) → Session → Session → Prop where
  | aside {s u t : Session} {answers : List (ServerId × Reply)} (a : Action)
      (hg : (s.act a).signatureRound = s.signatureRound) (rest : HandlesHelp (s.act a) answers u t) :
      HandlesHelp s answers u t
  | answer {s u t : Session} {answers : List (ServerId × Reply)} {place number : Nat}
      {server : ServerId} {reply : Reply}
      (hm : s.queue[place]? = some (.reply number server .signatureHelp reply))
      (live : s.isLive (.reply number server .signatureHelp reply) = true)
      (rest : HandlesHelp (s.deliver place) answers u t) :
      HandlesHelp s ((server, reply) :: answers) u t
  | last {s : Session} {place number : Nat} {server : ServerId} {reply : Reply}
      (hm : s.queue[place]? = some (.reply number server .signatureHelp reply))
      (live : s.isLive (.reply number server .signatureHelp reply) = true) :
      HandlesHelp s [(server, reply)] s (s.deliver place)

theorem HandlesHelp.ne_nil {s u t : Session} {answers : List (ServerId × Reply)}
    (h : HandlesHelp s answers u t) : answers ≠ [] := by
  induction h with
  | aside _ _ _ ih => exact ih
  | answer => simp
  | last => simp

theorem after_signatureView (s : Session) (actions : List Action) :
    (s.after actions).signatureView = s.signatureView := by
  refine after_induction (P := fun t => t.signatureView = s.signatureView) (fun u v hc h => ?_)
    (fun u v hc h => ?_) (fun u v hc h => ?_) rfl actions
  · rw [hc.frame]
    exact h
  · rw [hc.frame]
    exact h
  · cases hc with
    | attach => rwa [attach_frame]
    | detach => rwa [detach_frame]
    | takeCompletion => rwa [takeCompletion_frame]

/-- In the end the round holds all answers, and no help was shown before the last one. -/
theorem HandlesHelp.ends {s u t : Session} {g : SignatureRound} {answers : List (ServerId × Reply)}
    (h : HandlesHelp s answers u t) (hs : Advancing s) (hc : Candid s)
    (hg : s.signatureRound = some g) (hn : (answers.map (·.1)).Nodup)
    (hk : ∀ x, g.pending.contains x = true ↔ x ∈ answers.map (·.1)) :
    Candid u ∧ u.helpShown = s.helpShown ∧ u.signatureView = s.signatureView ∧
      ∃ (place : Nat) (d : SignatureRound), t =
          ({ u with queue := u.queue.eraseIdx place } : Session).finishSignatureRound d ∧
        d.replies = answers.foldl (fun t a => t.insert a.1 a.2) g.replies := by
  induction h generalizing g with
  | @aside s u t answers a hsame rest ih =>
    have he := ih (hs.act a) (hc.act a) (hsame.trans hg) hn hk
    have hview : (s.act a).signatureView = s.signatureView := after_signatureView s [a]
    rwa [(hs.act_unhelped hc hsame).helpShown_eq, hview] at he
  | @answer s u t answers place number server reply hm live rest ih =>
    obtain ⟨e, he, _, hd, hround⟩ := hs.deliver_signatureHelp hm live
    obtain rfl := Option.some.inj (hg.symm.trans he)
    obtain ⟨hhead, htail⟩ := List.nodup_cons.mp hn
    have hkeys (x : ServerId) : (g.record server reply).pending.contains x = true ↔
        x ∈ answers.map (·.1) := by
      rw [SignatureRound.record, Table.contains_erase, hk, List.map_cons, List.mem_cons]
      constructor
      · rintro ⟨hne, hx⟩
        exact hx.resolve_left (Ne.symm hne)
      · intro hx
        exact ⟨fun heq => hhead (heq ▸ hx), .inr hx⟩
    have hopen : (g.record server reply).pending.isEmpty = false := by
      obtain ⟨a, ha⟩ := List.exists_mem_of_ne_nil _ rest.ne_nil
      exact Table.isEmpty_eq_false ((hkeys a.1).mpr (List.mem_map_of_mem ha))
    rw [hopen] at hd hround
    have hrest := ih (hs.act (.deliver place)) (hc.act (.deliver place)) hround htail hkeys
    have htold : (s.deliver place).helpShown = s.helpShown := by
      rw [hd]
      rfl
    have hview : (s.deliver place).signatureView = s.signatureView := by
      rw [hd]
      rfl
    rwa [htold, hview] at hrest
  | @last s place number server reply hm live =>
    obtain ⟨e, he, _, hd, _⟩ := hs.deliver_signatureHelp hm live
    obtain rfl := Option.some.inj (hg.symm.trans he)
    have hclosed : (g.record server reply).pending.isEmpty = true := by
      refine (Table.isEmpty_iff _).mpr fun x => Option.eq_none_iff_forall_ne_some.mpr fun n hx => ?_
      obtain ⟨hne, hx⟩ := Table.contains_erase.mp (Option.isSome_of_eq_some hx)
      exact hne (List.mem_singleton.mp ((hk x).mp hx)).symm
    rw [hclosed] at hd
    exact ⟨hc, rfl, rfl, place, g.record server reply, hd, rfl⟩

/-- In every run, all servers that a round of signature help waits for answer, in whatever order, and
the user is in insert mode when the last answer is handled. Then help is shown once, that of the lowest
server whose answer has any, or not at all if none has; and all errors are reported, whichever servers
they come from. This depends on the answers of the servers alone. -/
theorem firstHelp_shownOnce (setup : Setup) (past : List Action) {g : SignatureRound}
    {u t : Session} {assignment : ServerMap Reply} {answers : List (ServerId × Reply)} :
    let s := setup.session.after past
    setup.signatureView = true → s.signatureRound = some g → g.replies = Table.empty →
    assignment.keys = g.pending.keys → answers.Perm assignment.entries → HandlesHelp s answers u t →
    u.buffer.inserting = true →
      u.helpShown = s.helpShown ∧
      t.helpShown = s.helpShown ++ helpTold (firstHelp? assignment.entries) ∧
      (∀ server help, firstHelp? assignment.entries = some (server, help) ↔
        (∃ reply, assignment.find? server = some reply ∧ reply.help? = some help) ∧
          ∀ x reply, x < server → assignment.find? x = some reply → reply.help? = none) ∧
      ((∀ x reply, assignment.find? x = some reply → reply.help? = none) →
        t.helpShown = s.helpShown) ∧
      Reports u (failures helpFailure assignment.entries) t ∧
      (∀ server e, assignment.find? server = some (.error e) → e.isCancelled = false →
        helpFailure server e.message ∈ t.notices) ∧
      t.signatureRound = none := by
  intro s hview hg hempty hkeys hperm hrun hi
  have hs : Advancing s := after_advancing setup past
  have hc : Candid s := after_candid setup past
  have hnodup : (answers.map (·.1)).Nodup := (hperm.map _).nodup_iff.mpr assignment.nodup_keys
  have hmem (x : ServerId) : g.pending.contains x = true ↔ x ∈ answers.map (·.1) := by
    rw [Table.contains, Option.isSome_iff_exists, ← Table.mem_keys_iff, ← hkeys]
    exact (hperm.map _).mem_iff.symm
  obtain ⟨huc, hushown, huview, place, d, rfl, hd⟩ := hrun.ends hs hc hg hnodup hmem
  have hreplies : d.replies = assignment := by
    rw [hd, hempty]
    refine Table.ext_find? fun x => Option.ext fun reply => ?_
    rw [Table.find?_eq_some_iff assignment, ← hperm.mem_iff]
    exact Table.find?_ofList hnodup x reply
  have hsview : s.signatureView = true := (after_signatureView _ past).trans hview
  let v : Session := { u with queue := u.queue.eraseIdx place }
  have hvview : v.signatureView = true := huview.trans hsview
  have hshown : (v.finishSignatureRound d).helpShown =
      s.helpShown ++ helpTold (firstHelp? assignment.entries) := by
    rw [← hushown, ← hreplies]
    exact finishSignatureRound_help hvview hi d
  have hproblems : v.helpProblems d = failures helpFailure assignment.entries := by
    rw [helpProblems, if_pos hi, hreplies]
  have hv : Reports u [] v := .aside (.of_eq rfl) rfl
  have hreports := hv.before (Reports.finishSignatureRound v d)
  rw [hproblems] at hreports
  refine ⟨hushown, hshown, fun _ _ => firstHelp?_eq_some_iff .., fun hnone => ?_, hreports, ?_, ?_⟩
  · rw [(firstHelp?_eq_none_iff assignment).mpr hnone, helpTold, List.append_nil] at hshown
    exact hshown
  · intro server e he hn
    refine (hreports.told huc).2 (.error, helpFailure server e.message) ?_
    exact List.mem_filterMap.mpr ⟨_, (Table.find?_eq_some_iff ..).mp he, by simp [failure?, hn]⟩
  · rw [finishSignatureRound_frame]

theorem respond_signatureRound (s : Session) (target : Target) (reply : Reply) :
    (s.act (.respond target reply)).signatureRound = s.signatureRound := by
  change (s.respond target reply).1.signatureRound = _
  unfold respond
  split
  · rw [answer_frame]
  · rfl

/-- Two servers are asked; the first one has help, and the second one has an error. -/
def helpAndError : Setup × List Action × ServerMap Reply :=
  ({ config := {}, uri := "file:///a", lines := [[]], cursor := ⟨0, 0⟩, missing := [],
     signatureView := true, snippets := [], matcher := ⟨fun _ _ => true⟩, commands := none,
     cancellable := true },
   [.attach ⟨1⟩ { signatureHelp := some {} } {}, .attach ⟨2⟩ { signatureHelp := some {} } {},
    .askForHelp],
   Table.ofList [(⟨1⟩, .ok (.obj [("signatures", .arr [.obj [("label", .str "f()")]])])),
    (⟨2⟩, .error ⟨-1, "foo"⟩)])

/-- The error is handled first. It is reported although the help of the first server is shown. -/
theorem firstHelp_shownOnce_helpAndError :
    let s := helpAndError.1.session.after helpAndError.2.1
    let answers := helpAndError.2.2.entries
    ∃ g u t, s.signatureRound = some g ∧ HandlesHelp s answers.reverse u t ∧
      t.helpShown.filterMap event? = [.signatureHelpShown ⟨1⟩ 1] ∧
      helpFailure ⟨2⟩ "foo" ∈ t.notices := by
  intro s answers
  let g : SignatureRound := ⟨[0, 1], Table.ofList [(⟨1⟩, 0), (⟨2⟩, 1)], Table.empty⟩
  have hg : s.signatureRound = some g := rfl
  let help : Reply := .ok (.obj [("signatures", .arr [.obj [("label", .str "f()")]])])
  let error : Reply := .error ⟨-1, "foo"⟩
  let helped := s.act (.respond (.number 0) help)
  let waiting := helped.act (.respond (.number 1) error)
  have hanswers : answers.reverse = [(⟨2⟩, error), (⟨1⟩, help)] := rfl
  have hrun : HandlesHelp s answers.reverse (waiting.deliver 1) ((waiting.deliver 1).deliver 0) := by
    rw [hanswers]
    refine .aside _ (respond_signatureRound s (.number 0) help) ?_
    refine .aside _ (respond_signatureRound helped (.number 1) error) ?_
    have hsecond : waiting.queue[1]? = some (.reply 1 ⟨2⟩ .signatureHelp error) := rfl
    have hfirst : (waiting.deliver 1).queue[0]? = some (.reply 0 ⟨1⟩ .signatureHelp help) := rfl
    exact .answer hsecond rfl (.last hfirst rfl)
  obtain ⟨_, hshown, _, _, _, herrors, _⟩ :=
    firstHelp_shownOnce helpAndError.1 helpAndError.2.1 rfl hg rfl
    rfl (List.reverse_perm _) hrun rfl
  refine ⟨g, _, _, hg, hrun, ?_, herrors ⟨2⟩ ⟨-1, "foo"⟩ rfl rfl⟩
  rw [hshown]
  decide +kernel

end Session
end Autocomplete

import Autocomplete.Proofs.Session.Acceptance
import Autocomplete.Proofs.Session.Fallback
import Autocomplete.Proofs.Session.Operations
import Autocomplete.Proofs.Session.Progress

/-! All problems that a session tries to report in a run, wherever they come from. The user is told of
each text once, as soon as it comes up for the first time. -/
namespace Autocomplete

def Observation.notification? : Observation → Option Problem
  | .call (.notify severity message) => some (severity, message)
  | _ => none

/-- Some problems without those whose text has come before. -/
def firsts (problems : List Problem) : List Problem := problems.eraseDupsBy fun p q => p.2 == q.2

theorem firsts_concat (problems : List Problem) (p : Problem) :
    firsts (problems ++ [p]) =
      if p.2 ∈ (firsts problems).map (·.2) then firsts problems else firsts problems ++ [p] := by
  have loop (left seen : List Problem) (r : Problem → Problem → Bool) :
      List.eraseDupsBy.loop r (left ++ [p]) seen =
        if (List.eraseDupsBy.loop r left seen).any (r p) then List.eraseDupsBy.loop r left seen
        else List.eraseDupsBy.loop r left seen ++ [p] := by
    induction left generalizing seen with
    | nil =>
      simp only [List.nil_append, List.eraseDupsBy.loop, List.any_reverse]
      cases seen.any (r p) with
      | true => rfl
      | false => exact List.reverse_cons
    | cons q left ih =>
      rw [List.cons_append, List.eraseDupsBy.loop, List.eraseDupsBy.loop]
      cases hq : seen.any (r q) with
      | true => exact ih seen
      | false => exact ih (q :: seen)
  have hany : (firsts problems).any (fun q => p.2 == q.2) = true ↔
      p.2 ∈ (firsts problems).map (·.2) := by
    simp only [List.any_eq_true, beq_iff_eq, List.mem_map]
    exact exists_congr fun q => and_congr_right fun _ => eq_comm
  exact (loop problems [] _).trans (if_congr hany rfl rfl)

namespace Session
open Observation

/-- What the user was told of problems, and how grave they were. -/
def notifications (s : Session) : List Problem := s.trace.filterMap notification?

theorem notices_eq_map (s : Session) : s.notices = s.notifications.map (·.2) := by
  rw [notices, notifications, List.map_filterMap]
  refine List.filterMap_congr fun o _ => ?_
  cases o with
  | call c => cases c <;> rfl
  | _ => rfl

theorem Untroubled.notifications_eq {s t : Session} (h : Untroubled s t) :
    t.notifications = s.notifications := by
  obtain ⟨obs, ht, ho⟩ := h
  have hn : obs.filterMap notification? = [] := by
    refine List.filterMap_eq_nil_iff.mpr fun o hm => ?_
    have hno := ho o hm
    cases o with
    | call c => cases c <;> first | rfl | cases hno
    | _ => rfl
  rw [notifications, ht, List.filterMap_append, hn, List.append_nil, notifications]

/-- A problem is passed over if the user was told its text before. -/
theorem Candid.report_notifications {s : Session} (h : Candid s) (severity : Severity)
    (message : String) : (s.report severity message).notifications =
      if message ∈ s.notifications.map (·.2) then s.notifications
      else s.notifications ++ [(severity, message)] := by
  rw [← notices_eq_map]
  unfold Session.report
  by_cases hm : message ∈ s.notices
  · rw [if_pos ((h.contains_iff message).mpr hm), if_pos hm]
  · rw [if_neg (fun hc => hm ((h.contains_iff message).mp hc)), if_neg hm]
    change List.filterMap notification? (s.trace ++ [.log _] ++ [.call _]) = _
    rw [List.filterMap_append, List.filterMap_append]
    exact congrArg (· ++ [(severity, message)]) (List.append_nil _)

/-- If the user was told the first attempts so far, this remains so. -/
theorem Reports.notifications {s t : Session} {problems : List Problem} (h : Reports s problems t)
    (hs : Candid s) {past : List Problem} (hp : s.notifications = firsts past) :
    t.notifications = firsts (past ++ problems) := by
  induction h generalizing past with
  | aside h => rw [List.append_nil, h.notifications_eq, hp]
  | report s severity message => rw [hs.report_notifications, firsts_concat, hp]
  | trans h _ ih ih' =>
    rw [← List.append_assoc]
    exact ih' (h.candid hs) (ih hs hp)

/-- What the user was told stays told, and whatever the session tries to report has been told then. -/
theorem Reports.told {s t : Session} {problems : List Problem} (h : Reports s problems t)
    (hs : Candid s) : s.notices ⊆ t.notices ∧ ∀ p ∈ problems, p.2 ∈ t.notices := by
  induction h with
  | aside h =>
    rw [h.notices_eq]
    exact ⟨List.Subset.refl _, by simp⟩
  | report s severity message =>
    rw [notices_eq_map, notices_eq_map, hs.report_notifications]
    split
    next hm => exact ⟨List.Subset.refl _, by simpa using hm⟩
    next => exact ⟨List.map_subset _ (List.subset_append_left ..), by simp⟩
  | trans h _ ih ih' =>
    obtain ⟨hst, hfirst⟩ := ih hs
    obtain ⟨htu, hsecond⟩ := ih' (h.candid hs)
    refine ⟨List.Subset.trans hst htu, fun p hp => ?_⟩
    exact (List.mem_append.mp hp).elim (fun hp => htu (hfirst p hp)) (hsecond p)

/-- Every single attempt is one of the session in some state. -/
theorem Reports.split {s t : Session} {problems : List Problem} (h : Reports s problems t)
    {before after : List Problem} {p : Problem} (hp : problems = before ++ p :: after) :
    ∃ v, Reports s before v ∧ Reports (v.report p.1 p.2) after t := by
  induction h generalizing before after with
  | aside => simp at hp
  | report s severity message =>
    obtain ⟨rfl, hp⟩ | ⟨rfl, hp⟩ := List.singleton_eq_append_iff.mp hp
    · obtain ⟨rfl, rfl⟩ := List.cons.inj hp
      exact ⟨s, .aside (.of_eq rfl) rfl, .aside (.of_eq rfl) rfl⟩
    · cases hp
  | trans h g ih ih' =>
    rcases append_eq_append_cons hp with ⟨more, rfl, hsecond⟩ | ⟨more, hfirst⟩
    · obtain ⟨v, hv, ha⟩ := ih' hsecond
      exact ⟨v, h.trans hv, ha⟩
    · obtain ⟨v, hv, ha⟩ := ih hfirst
      refine ⟨v, hv, ?_⟩
      obtain rfl : after = more ++ _ := by
        rw [hfirst, List.append_assoc, List.cons_append] at hp
        exact (List.cons.inj (List.append_cancel_left hp)).2.symm
      exact ha.trans g

/-- The problem with a snippet for which no room can be made. -/
def snippetProblems (s : Session) (expand : Bool) (m : Match) : List Problem :=
  match m.item.replacementText.filter fun _ => expand && m.item.isSnippet with
  | none => []
  | some _ =>
    if s.availableEngine?.isSome then []
    else [(.warning, s!"No snippet engine available to expand {m.item.label}")]

/-- The problem with a command that nobody runs. -/
def commandProblems (s : Session) (server : ServerId) : Option Command → List Problem
  | none => []
  | some command =>
    if (s.handler? server command.name).isSome || s.runs server command.name then []
    else [(.warning, s!"Unsupported command {command.name} from {server.display}")]

/-- The problem with the answer for an accepted item. -/
def answerProblems (server : ServerId) : Reply → List Problem
  | .ok value =>
    match Item.decode value with
    | .ok _ => []
    | .error e => [(.warning, s!"Invalid resolve response from {server.display}: {e.message}")]
  | .error e =>
    if e.isCancelled then []
    else [(.warning, s!"Failed to resolve completion item on {server.display}: {e.message}")]

/-- Whether the missing parts of an accepted entry are asked for. -/
def asksMore (s : Session) (m : Match) : Bool :=
  (m.item.additionalTextEdits.getD []).isEmpty &&
    ((s.bindings.find? m.server).map (·.resolves)).getD false

/-- The problems of an entry that is accepted. Its literal text is not put back, since room is only
made if there is an engine. -/
def acceptProblems (s : Session) (m : Match) : List Problem :=
  s.snippetProblems s.expandSnippet m ++
    if s.asksMore m then [] else s.commandProblems m.server m.item.command

/-- The problems of an accepted item whose missing parts have come. -/
def resolutionProblems (s : Session) (p : PendingResolve) (reply : Reply) : List Problem :=
  answerProblems p.payload.server reply ++ ((if p.expansion.isSome then s.literalProblems else []) ++
    s.commandProblems p.payload.server (resolvedCommand? reply <|> p.payload.item.command))

section
variable {s t : Session}

theorem commandProblems_congr (hb : t.bindings = s.bindings) (hc : t.commands = s.commands)
    (server : ServerId) (command : Option Command) :
    t.commandProblems server command = s.commandProblems server command := by
  cases command with
  | none => rfl
  | some command =>
    have hh : t.handler? server command.name = s.handler? server command.name := by
      rw [handler?, hb, hc, handler?]
    have hr : t.runs server command.name = s.runs server command.name := by rw [runs, hb, runs]
    rw [commandProblems, hh, hr, commandProblems]

theorem snippetProblems_congr (h : t.snippets = s.snippets) (expand : Bool) (m : Match) :
    t.snippetProblems expand m = s.snippetProblems expand m := by
  have he : t.availableEngine? = s.availableEngine? := by
    rw [availableEngine?, h, availableEngine?]
  rw [snippetProblems, he, snippetProblems]

theorem literalProblems_congr (hi : t.buffer.inserting = s.buffer.inserting)
    (h : t.snippets = s.snippets) : t.literalProblems = s.literalProblems := by
  have he : t.availableEngine? = s.availableEngine? := by
    rw [availableEngine?, h, availableEngine?]
  rw [literalProblems, hi, he, literalProblems]

end

/-- Room is only made if there is an engine that expands the snippet. -/
theorem prepareExpansion_literalProblems (s : Session) (expand : Bool) (m : Match)
    (h : (s.prepareExpansion expand m).2.isSome = true) :
    (s.prepareExpansion expand m).1.literalProblems = [] := by
  unfold prepareExpansion at h ⊢
  cases hr : m.item.replacementText.filter fun _ => expand && m.item.isSnippet with
  | none =>
    rw [hr] at h
    cases h
  | some template =>
    rw [hr] at h
    dsimp only at h ⊢
    split at h
    next he =>
      rw [if_pos he]
      have he : (s.removeInsertedWord m.word template).1.availableEngine?.isSome = true := he
      rw [literalProblems, Option.isNone_eq_false_iff.mpr he, Bool.and_false]
      rfl
    next => cases h

theorem applyResolved_inserting (s : Session) (p : PendingResolve) (reply : Reply) :
    (s.applyResolved p reply).1.buffer.inserting = s.buffer.inserting := by
  unfold applyResolved
  cases reply with
  | ok value =>
    dsimp only
    cases Item.decode value with
    | ok item =>
      dsimp only
      split
      · rfl
      · split
        · exact applyEdits_inserting ..
        · rfl
    | error e => exact congrArg (·.buffer.inserting) (report_frame ..)
  | error e =>
    dsimp only
    split
    · rfl
    · exact congrArg (·.buffer.inserting) (report_frame ..)

namespace Reports

theorem log (s : Session) (level : Level) (area message : String) (fields : List (String × Json)) :
    Reports s [] (s.log level area message fields) := .routine (Tells.log ..) rfl

theorem startRound (s : Session) (trigger : Trigger) : Reports s [] (s.startRound trigger) := by
  refine .routine (startRound_tells s trigger) ?_
  rw [Session.startRound, openRound_frame, giveUpRound_frame]

theorem triggerSignatureHelp (s : Session) : Reports s [] s.triggerSignatureHelp := by
  refine .routine (triggerSignatureHelp_tells s) ?_
  unfold Session.triggerSignatureHelp
  split
  · rw [sendSignatureHelp, openSignatureRound_frame, cancelSignatureRound_frame]
    rfl
  · rfl

theorem followUp (s : Session) (f : FollowUp) : Reports s [] (s.followUp f) := by
  unfold Session.followUp
  extract_lets t
  have ht : Reports s [] t := log ..
  cases f with
  | triggerCompletion =>
    have hd : Reports t [] t.dropCompletionTimer := .aside (.of_eq rfl) rfl
    exact ht.before (hd.before (startRound ..))
  | triggerSignatureHelp => exact ht.before (triggerSignatureHelp t)

theorem runHandler (s : Session) (server : ServerId) (command : Command) (handler : Handler) :
    Reports s [] (s.runHandler server command handler) := by
  unfold Session.runHandler
  extract_lets t u
  have ht : Reports s [] t := log ..
  have hu : Reports t [] u := by
    unfold u
    split
    · exact .aside (.one rfl rfl) rfl
    · exact .aside (.of_eq rfl) rfl
  split
  · exact ht.before (hu.before (followUp ..))
  · exact ht.before hu

theorem executeCommand (s : Session) (server : ServerId) (command : Command) :
    Reports s (s.commandProblems server (some command)) (s.executeCommand server command) := by
  unfold Session.executeCommand commandProblems
  dsimp only
  cases s.handler? server command.name with
  | some handler => exact runHandler ..
  | none =>
    rw [Option.isSome_none, Bool.false_or]
    change Reports s _ (if s.runs server command.name then _ else _)
    split
    · have ht : Reports s [] (s.log .debug "accept" "Executing command on server"
          [("command", .str command.name), ("server", .str server.display)]) := log ..
      exact ht.before (.aside (.one (by rw [send_frame]) rfl) (by rw [send_frame]))
    · exact .report ..

theorem concludeAccept (s : Session) (payload : Payload) (resolved : Option Command)
    (expanded : Bool) :
    Reports s (s.commandProblems payload.server (resolved <|> payload.item.command))
      (s.concludeAccept payload resolved expanded) := by
  unfold Session.concludeAccept
  extract_lets t u
  have ht : Reports s [] t := log ..
  have hu : Reports t [] u := .aside (.one rfl rfl) rfl
  split
  next command hc =>
    rw [hc]
    exact ht.before (hu.before (executeCommand u ..))
  next hc =>
    rw [hc]
    exact ht.before hu

theorem finishAccept (s : Session) (payload : Payload) (resolved : Option Command)
    (expansion : Option Expansion) :
    Reports s ((if expansion.isSome then s.literalProblems else []) ++
        s.commandProblems payload.server (resolved <|> payload.item.command))
      (s.finishAccept payload resolved expansion) := by
  cases expansion with
  | none => exact concludeAccept ..
  | some e =>
    have hf := s.expand_frame e
    have hc := concludeAccept (s.expand e).1 payload resolved (s.expand e).2
    rw [commandProblems_congr (s := s) (by rw [hf]) (by rw [hf]; rfl)] at hc
    exact (expand s e).trans hc

theorem applyEdits (s : Session) (server : ServerId) (edits : List TextEdit) :
    Reports s [] (s.applyEdits server edits) := by
  have each (encoding : Encoding) (es : List TextEdit) (t : Session) :
      Reports t [] (es.foldl (applyEdit encoding) t) := by
    induction es generalizing t with
    | nil => exact .aside (.of_eq rfl) rfl
    | cons e es ih =>
      have ht : Reports t [] (applyEdit encoding t e) := .aside (.one rfl rfl) rfl
      exact ht.before (ih _)
  exact each _ _ s

theorem prepareExpansion (s : Session) (expand : Bool) (m : Match) :
    Reports s (s.snippetProblems expand m) (s.prepareExpansion expand m).1 := by
  unfold Session.prepareExpansion snippetProblems
  cases m.item.replacementText.filter fun _ => expand && m.item.isSnippet with
  | none => exact .aside (.of_eq rfl) rfl
  | some template =>
    dsimp only
    split
    · exact .aside (.one rfl rfl) rfl
    · exact .report ..

theorem reset (s : Session) (reason : CancelReason) : Reports s [] (s.reset reason) :=
  .routine (Tells.reset s reason) (by rw [reset_frame])

theorem supplyEdits {s : Session} {expansion : Option Expansion}
    (h : expansion.isSome = true → s.literalProblems = []) (m : Match) :
    Reports s (if s.asksMore m then [] else s.commandProblems m.server m.item.command)
      (s.supplyEdits m expansion) := by
  have finish {t : Session} (ht : Reports s [] t) (hb : t.bindings = s.bindings)
      (hc : t.commands = s.commands) (hl : t.literalProblems = s.literalProblems) :
      Reports s (s.commandProblems m.server m.item.command)
        (t.finishAccept m.payload none expansion) := by
    have hf := finishAccept t m.payload none expansion
    have hn : (if expansion.isSome then t.literalProblems else []) = [] := by
      rw [hl]
      exact ite_eq_right_iff.mpr h
    rw [hn, commandProblems_congr hb hc] at hf
    exact ht.before hf
  unfold Session.supplyEdits asksMore
  cases m.item.additionalTextEdits.getD [] with
  | cons e es =>
    have hf := s.applyEdits_frame m.server (e :: es)
    exact finish (applyEdits ..) (by rw [hf]) (by rw [hf]; rfl)
      (literalProblems_congr (applyEdits_inserting ..) (by rw [hf]))
  | nil =>
    rw [List.isEmpty_nil, Bool.true_and]
    dsimp only
    split
    · refine .routine (Tells.sendResolve s m.payload expansion) ?_
      unfold sendResolve
      dsimp only
      rw [send_frame]
      rfl
    · exact finish (.aside (.of_eq rfl) rfl) rfl rfl rfl

theorem acceptMatch (s : Session) (m : Match) : Reports s (s.acceptProblems m) (s.acceptMatch m) := by
  obtain ⟨_, hbindings, hsnippets⟩ := s.ready_frame
  have hready : Reports s [] (s.reset .accepted).supersedeResolve :=
    (reset s .accepted).before
      (.routine (Tells.supersedeResolve _) (by rw [supersedeResolve_frame]))
  have hcommands : (s.reset .accepted).supersedeResolve.commands = s.commands := by
    rw [supersedeResolve_frame, reset_frame]
    rfl
  unfold Session.acceptMatch acceptProblems
  generalize (s.reset .accepted).supersedeResolve = u at *
  have hp := prepareExpansion u s.expandSnippet m
  have hf := u.prepareExpansion_frame s.expandSnippet m
  have hs := supplyEdits (u.prepareExpansion_literalProblems s.expandSnippet m) m
  rw [snippetProblems_congr hsnippets] at hp
  generalize u.prepareExpansion s.expandSnippet m = result at *
  obtain ⟨t, expansion⟩ := result
  dsimp only at hp hf hs ⊢
  have hasks : t.asksMore m = s.asksMore m := by
    rw [asksMore, hf, asksMore, ← hbindings]
  rw [hasks, commandProblems_congr (s := s) (by rw [hf, ← hbindings])
    (by rw [hf, ← hcommands]; rfl)] at hs
  exact (hready.before hp).trans hs

theorem applyResolved (s : Session) (p : PendingResolve) (reply : Reply) :
    Reports s (answerProblems p.payload.server reply) (s.applyResolved p reply).1 := by
  unfold Session.applyResolved answerProblems
  cases reply with
  | ok value =>
    dsimp only
    cases Item.decode value with
    | ok item =>
      dsimp only
      split
      · exact log ..
      · split
        · exact applyEdits ..
        · exact log ..
    | error e => exact .report ..
  | error e =>
    dsimp only
    split
    · exact .aside (.of_eq rfl) rfl
    · exact .report ..

theorem takeResolved (s : Session) (reply : Reply) :
    Reports s ((s.resolve.map fun p => s.resolutionProblems p reply).getD [])
      (s.takeResolved reply) := by
  unfold Session.takeResolved
  cases hp : s.resolve with
  | none => exact .aside (.of_eq rfl) rfl
  | some p =>
    let u : Session := { s with resolve := none }
    let t := (u.applyResolved p reply).1
    have hu : Reports s [] u := .aside (.of_eq rfl) rfl
    have hframe : t = _ := u.applyResolved_frame p reply
    have hf := finishAccept t p.payload (resolvedCommand? reply) p.expansion
    have hliteral : t.literalProblems = s.literalProblems :=
      literalProblems_congr (u.applyResolved_inserting p reply) (by rw [hframe])
    rw [hliteral, commandProblems_congr (s := s) (by rw [hframe]) (by rw [hframe]; rfl)] at hf
    dsimp only
    rw [applyResolved_command]
    exact hu.before ((applyResolved u p reply).trans hf)

end Reports

/-- The problems that the answer of a server to a completion request brings to light. -/
def completionProblems (s : Session) (server : ServerId) (reply : Reply) : List Problem :=
  match s.round with
  | none => []
  | some c =>
    let d := c.record server reply
    if d.pending.isEmpty then s.roundProblems d else []

/-- The problems that the answer of a server about signature help brings to light. -/
def signatureProblems (s : Session) (server : ServerId) (reply : Reply) : List Problem :=
  match s.signatureRound with
  | none => []
  | some g =>
    let d := g.record server reply
    if d.pending.isEmpty then s.helpProblems d else []

/-- The problem that the answer to a command is. -/
def refusalProblems (server : ServerId) (command : String) : Reply → List Problem
  | .ok _ => []
  | .error e => [(.warning, s!"Command {command} failed on {server.display}: {e.message}")]

/-- The problems that a message brings to light. Errors of commands always matter, and other answers
only as long as the session cares for them. -/
def messageProblems (s : Session) (m : Message) : List Problem :=
  match m with
  | .timer .. => []
  | .reply _ server (.command name) reply => refusalProblems server name reply
  | .reply _ server purpose reply =>
    if s.isLive m then
      match purpose with
      | .completion _ => s.completionProblems server reply
      | .signatureHelp => s.signatureProblems server reply
      | .resolve => ((s.resolve).map fun p => s.resolutionProblems p reply).getD []
      | .command _ => []
    else []

/-- Whoever tells of no problems keeps none. -/
theorem Candid.aside {s t : Session} (hs : Candid s) (ht : Candid t) (h : Untroubled s t) :
    Reports s [] t := by
  refine .aside h (List.reverse_injective ?_)
  rw [← ht.told, ← hs.told, h.notices_eq]

theorem Candid.act {s : Session} (h : Candid s) (a : Action) : Candid (s.act a) :=
  after_induction (fun _ _ hc h => hc.candid h) (fun _ _ hc h => hc.candid h)
    (fun _ _ hc h => hc.candid h) h [a]

theorem Advancing.deliver_reports {s : Session} (h : Advancing s) (hs : Candid s) (place : Nat) :
    Reports s (((s.queue[place]?).map s.messageProblems).getD []) (s.deliver place) := by
  cases hm : s.queue[place]? with
  | none =>
    rw [deliver, hm]
    exact .aside (.of_eq rfl) rfl
  | some m =>
    change Reports s (s.messageProblems m) _
    have hdrop : Reports s [] { s with queue := s.queue.eraseIdx place } := .aside (.of_eq rfl) rfl
    have hcandid : Candid (s.deliver place) := hs.act (.deliver place)
    cases m with
    | timer kind serial =>
      refine hs.aside hcandid ?_
      rw [deliver_eq hm]
      unfold handle
      dsimp only
      split
      · exact (Tells.of_eq rfl).trans (timerElapsed_tells _ kind).untroubled
      · exact .one rfl rfl
    | reply n server purpose reply =>
      cases purpose with
      | completion id =>
        change Reports s (if s.isLive (.reply n server (.completion id) reply) then
          s.completionProblems server reply else []) _
        split
        next hl =>
          obtain ⟨c, hc, -, -, hd, -⟩ := h.deliver_completion hm hl
          rw [completionProblems, hc, hd]
          let d := c.record server reply
          let t := ({ s with queue := s.queue.eraseIdx place, round := some d } : Session).note
            (.recorded n server reply)
          have ht : Reports s [] t := .aside (.one rfl rfl) rfl
          change Reports s (if d.pending.isEmpty then s.roundProblems d else [])
            (if d.pending.isEmpty then t.finishRound d else t)
          split
          · exact ht.before (.finishRound t d)
          · exact ht
        next hl =>
          rw [deliver_eq hm, Bool.eq_false_iff.mpr hl]
          exact hdrop.before (.log ..)
      | signatureHelp =>
        change Reports s (if s.isLive (.reply n server .signatureHelp reply) then
          s.signatureProblems server reply else []) _
        split
        next hl =>
          obtain ⟨g, hg, -, hd, -⟩ := h.deliver_signatureHelp hm hl
          rw [signatureProblems, hg, hd]
          dsimp only
          split
          · exact hdrop.before (.finishSignatureRound ..)
          · exact .aside (.of_eq rfl) rfl
        next hl =>
          rw [deliver_eq hm, Bool.eq_false_iff.mpr hl]
          exact hdrop
      | resolve =>
        change Reports s (if s.isLive (.reply n server .resolve reply) then
          (s.resolve.map fun p => s.resolutionProblems p reply).getD [] else []) _
        rw [deliver_eq hm]
        split
        next hl =>
          rw [hl]
          exact hdrop.before (.takeResolved _ reply)
        next hl =>
          rw [Bool.eq_false_iff.mpr hl]
          exact hdrop
      | command name =>
        rw [deliver_eq hm]
        change Reports s (refusalProblems server name reply)
          (Session.takeCommandReply _ server name reply)
        cases reply with
        | ok => exact hdrop
        | error => exact hdrop.before (.report ..)

/-- The problems that come to light as signature help no longer waits for a server. -/
def detachedHelpProblems (s : Session) (server : ServerId) : List Problem :=
  match s.signatureRound with
  | none => []
  | some g =>
    let d := g.without server
    if g.pending.contains server && d.pending.isEmpty then s.helpProblems d else []

/-- The problems that come to light as a round is no longer about a server. -/
def detachedRoundProblems (s : Session) (server : ServerId) : List Problem :=
  match s.round with
  | none => []
  | some c =>
    let d := c.drop server
    if d.pending.isEmpty && !d.replies.isEmpty then s.roundProblems d else []

def detachProblems (s : Session) (server : ServerId) : List Problem :=
  if s.bindings.contains server then
    s.detachedHelpProblems server ++ s.detachedRoundProblems server
  else []

theorem detachFromSignature_reports (s : Session) (server : ServerId) :
    Reports s (s.detachedHelpProblems server) (s.detachFromSignature server) := by
  unfold detachedHelpProblems
  rcases s.detachFromSignature_cases server with ⟨he, hn⟩ | ⟨g, n, hg, hn, he⟩
  · rw [he]
    cases hg : s.signatureRound with
    | none => exact .aside (.of_eq rfl) rfl
    | some g =>
      dsimp only
      rw [Table.contains, hn g hg]
      exact .aside (.of_eq rfl) rfl
  · rw [he, hg]
    let d := g.without server
    let u := ({ s with signatureRound := some d } : Session).cancel n
    change Reports s (if g.pending.contains server && d.pending.isEmpty then s.helpProblems d else [])
      (if d.pending.isEmpty then u.finishSignatureRound d else u)
    have hu : Reports s [] u := by
      have hc := Adds.cancel { s with signatureRound := some d } n
      refine .routine (hc.routine (by simp) (by simp)) ?_
      change (Session.cancel _ n).reported = _
      rw [cancel_frame]
    have hi : u.buffer.inserting = s.buffer.inserting := by
      change (Session.cancel _ n).buffer.inserting = _
      rw [cancel_frame]
    rw [Table.contains, hn, Option.isSome_some, Bool.true_and]
    split
    · have hf := Reports.finishSignatureRound u d
      rw [helpProblems, hi] at hf
      exact hu.before hf
    · exact hu

theorem detachFromRound_reports {s : Session} (h : ∀ c, s.round = some c → c.pending.isEmpty = false)
    (server : ServerId) :
    Reports s (s.detachedRoundProblems server) (s.detachFromRound server) := by
  unfold detachedRoundProblems
  cases hc : s.round with
  | none =>
    rw [detachFromRound, hc]
    exact .aside (.of_eq rfl) rfl
  | some c =>
    rw [detachFromRound_eq hc (h c hc)]
    let d := c.drop server
    let u := s.dropServer c server
    change Reports s (if d.pending.isEmpty && !d.replies.isEmpty then s.roundProblems d else [])
      (if d.pending.isEmpty = false then u
        else if d.replies.isEmpty then { u with round := none }.emit (.cancelled c.id .detached)
        else u.finishRound d)
    have hu : Reports s [] u := by
      have hd := Adds.dropServer s c server
      refine .routine (hd.routine (by simp) (by simp)) ?_
      change (s.dropServer c server).reported = _
      rw [dropServer_frame]
    have hb : u.roundProblems d = s.roundProblems d := by
      have hf : u = _ := s.dropServer_frame c server
      rw [roundProblems, hf, roundProblems]
    cases d.pending.isEmpty with
    | false => exact hu
    | true =>
      cases d.replies.isEmpty with
      | true => exact hu.before (.aside (.one rfl rfl) rfl)
      | false => exact hu.before (hb ▸ .finishRound u d)

theorem Advancing.detach_reports {s : Session} (h : Advancing s) (server : ServerId) :
    Reports s (s.detachProblems server) (s.detach server) := by
  unfold detachProblems
  by_cases hs : s.bindings.contains server = true
  case neg =>
    rw [if_neg hs, detach, if_neg hs]
    exact .aside (.of_eq rfl) rfl
  rw [if_pos hs, detach_eq hs]
  have hu : Reports s [] (s.unbind server) := .aside (.one rfl rfl) rfl
  have hf := (s.unbind server).detachFromSignature_frame server
  have hg := detachFromSignature_reports (s.unbind server) server
  generalize (s.unbind server).detachFromSignature server = t at hf hg ⊢
  have hr : t.detachedRoundProblems server = s.detachedRoundProblems server := by
    rw [hf]
    rfl
  have hd := detachFromRound_reports (s := t) (fun c hc => (h.round c (by rw [← hc, hf]; rfl)).waits)
    server
  exact hu.before (hg.trans (hr ▸ hd))

/-- The problems that an action brings to light, in the order in which the session tries to report
them. -/
def problems (s : Session) (a : Action) : List Problem :=
  match a with
  | .perform ⟨.detach server, _⟩ => s.detachProblems server
  | .perform ⟨.completeDone _, _⟩ => ((s.accepted? a).map s.acceptProblems).getD []
  | .perform _ => []
  | .deliver place => ((s.queue[place]?).map s.messageProblems).getD []

/-- All problems that come to light in a run. -/
def problemsOf : Session → List Action → List Problem
  | _, [] => []
  | s, a :: rest => s.problems a ++ problemsOf (s.act a) rest

theorem completeDone_reports (s : Session) (selection : Selection) :
    Reports s (s.problems (.completeDone selection)) (s.act (.completeDone selection)) := by
  change Reports s
    (((if s.suppressDone then none else s.selected? selection).map s.acceptProblems).getD [])
    (s.completeDone (s.selected? selection))
  unfold completeDone
  split
  · exact .aside (.one rfl rfl) rfl
  · cases s.selected? selection with
    | none => exact .reset s .dismissed
    | some m => exact .acceptMatch s m

/-- An action tries to report just the problems that it brings to light. -/
theorem Advancing.act_reports {s : Session} (h : Advancing s) (hs : Candid s) (a : Action) :
    Reports s (s.problems a) (s.act a) := by
  cases a with
  | deliver place => exact h.deliver_reports hs place
  | perform o =>
    have hcandid : Candid (s.act (.perform o)) := hs.act _
    obtain ⟨o, ho⟩ := o
    cases o with
    | detach server => exact h.detach_reports server
    | completeDone selection => exact completeDone_reports s selection
    | _ =>
      have ht := perform_tells s ⟨_, ho⟩ (by simp) (by simp)
      exact hs.aside hcandid (ht.mono fun _ ho => ho.2)

theorem Advancing.act {s : Session} (h : Advancing s) (a : Action) : Advancing (s.act a) :=
  after_induction (fun _ _ hc h => hc.advancing h) (fun _ _ hc h => hc.advancing h)
    (fun _ _ hc h => hc.advancing h) h [a]

theorem Advancing.after_reports {s : Session} (h : Advancing s) (hs : Candid s)
    (actions : List Action) : Reports s (problemsOf s actions) (s.after actions) := by
  induction actions generalizing s with
  | nil => exact .aside (.of_eq rfl) rfl
  | cons a rest ih => exact (h.act_reports hs a).trans (ih (h.act a) (hs.act a))

/-- In every run, the user is told exactly the problems that the session tries to report, in that order
and without those whose text has come before: no text comes twice, and after the first attempt to report
one the user has been told. -/
theorem problems_toldOnce (setup : Setup) (actions : List Action) :
    let s := setup.session.after actions
    let attempts := problemsOf setup.session actions
    s.notifications = firsts attempts ∧ (s.notifications.map (·.2)).Nodup ∧
      ∀ before p after, attempts = before ++ p :: after →
        ∃ v, Reports setup.session before v ∧ Reports (v.report p.1 p.2) after s ∧
          v.notifications = firsts before ∧
          (v.report p.1 p.2).notifications = firsts (before ++ [p]) ∧
          p.2 ∈ (v.report p.1 p.2).notices := by
  intro s attempts
  have hsetup : Candid setup.session := candid_setup setup
  have hnone : setup.session.notifications = firsts [] := rfl
  have hreports : Reports setup.session attempts s :=
    (advancing_setup setup).after_reports hsetup actions
  refine ⟨hreports.notifications hsetup hnone, ?_, ?_⟩
  · have hs : Candid s := hreports.candid hsetup
    rw [← notices_eq_map, hs.told]
    exact List.nodup_reverse.mpr hs.distinct
  · intro before p after hp
    obtain ⟨v, hv, ha⟩ := hreports.split hp
    have hcandid : Candid v := hv.candid hsetup
    have hbefore : v.notifications = firsts before := hv.notifications hsetup hnone
    have hreport : Reports v [p] (v.report p.1 p.2) := .report ..
    exact ⟨v, hv, ha, hbefore, hreport.notifications hcandid hbefore,
      (hreport.told hcandid).2 p List.mem_cons_self⟩

/-- An error that comes up again after its server was detached and attached is passed over. -/
example :
    let setup : Setup :=
      { config := {}, uri := "file:///a", lines := [[]], cursor := ⟨0, 0⟩, missing := [],
        signatureView := false, snippets := [], matcher := ⟨fun _ _ => true⟩, commands := none,
        cancellable := true }
    let fail (n : Nat) : List Action :=
      [.attach ⟨1⟩ { completion := some {} } {}, .triggerCompletion,
        .respond (.number n) (.error ⟨-1, "foo"⟩), .deliver 0]
    let actions := fail 0 ++ .detach ⟨1⟩ :: fail 1
    let problem : Problem := (.error, "Completion failed on server#1: foo")
    problemsOf setup.session actions = [problem, problem] ∧
      (setup.session.after actions).notifications = [problem] := by
  decide +kernel

end Session
end Autocomplete

import Autocomplete.Proofs.Session.Problems

/-! Requests that were cancelled. The user is told of the same problems as if they had been answered
with nothing, except that a command that was cancelled is reported like one that failed. -/
namespace Autocomplete

/-- An answer that says nothing: an item without anything in it. -/
def Reply.blank : Reply := .ok (.obj [("label", .str "")])

/-- An answer with nothing in place of the error that the request was cancelled. -/
def Reply.excused : Reply → Reply
  | .ok value => .ok value
  | .error e => if e.isCancelled then blank else .error e

/-- Whoever takes a cancelled request for one answered with nothing sees no difference. -/
theorem Reply.apply_excused {α : Type} {f : Reply → α}
    (h : ∀ e : ResponseError, e.isCancelled = true → f (.error e) = f blank) (reply : Reply) :
    f reply.excused = f reply := by
  cases reply with
  | ok value => rfl
  | error e =>
    by_cases he : e.isCancelled = true
    · rw [excused, if_pos he, h e he]
    · rw [excused, if_neg he]

/-- A message with its answer excused, unless it is about a command. -/
def Message.excused : Message → Message
  | .timer kind serial => .timer kind serial
  | .reply n server (.command name) answer => .reply n server (.command name) answer
  | .reply n server purpose answer => .reply n server purpose answer.excused

def Round.excused (c : Round) : Round := { c with replies := c.replies.map Reply.excused }

def SignatureRound.excused (g : SignatureRound) : SignatureRound :=
  { g with replies := g.replies.map Reply.excused }

theorem failures_excused (tell : ServerId → String → String) (replies : ServerMap Reply) :
    failures tell (replies.map Reply.excused).entries = failures tell replies.entries := by
  change List.filterMap _ (replies.entries.map _) = List.filterMap _ replies.entries
  rw [List.filterMap_map]
  refine List.filterMap_congr fun answer _ => ?_
  obtain ⟨server, reply⟩ := answer
  refine Reply.apply_excused (f := fun reply => match reply with
    | .ok _ => none
    | .error e => failure? tell (server, e)) (fun e he => ?_) reply
  exact if_pos he

theorem resolvedCommand?_excused (reply : Reply) :
    resolvedCommand? reply.excused = resolvedCommand? reply :=
  Reply.apply_excused (fun _ _ => rfl) reply

theorem Session.answerProblems_excused (server : ServerId) (reply : Reply) :
    answerProblems server reply.excused = answerProblems server reply :=
  Reply.apply_excused (f := answerProblems server) (fun _ he => if_pos he) reply

theorem Round.excused_record (c : Round) (server : ServerId) (reply : Reply) :
    (c.record server reply).excused = c.excused.record server reply.excused := by
  simp [Round.excused, Round.record, Table.map_insert]

theorem Round.excused_drop (c : Round) (server : ServerId) :
    (c.drop server).excused = c.excused.drop server := by
  simp [Round.excused, Round.drop, Table.map_erase]

theorem SignatureRound.excused_record (g : SignatureRound) (server : ServerId) (reply : Reply) :
    (g.record server reply).excused = g.excused.record server reply.excused := by
  simp [SignatureRound.excused, SignatureRound.record, Table.map_insert]

namespace Session

/-- The session as it would be if all requests that were cancelled had been answered with nothing. -/
def excused (s : Session) : Session :=
  { s with
    queue := s.queue.map Message.excused
    round := s.round.map Round.excused
    signatureRound := s.signatureRound.map SignatureRound.excused }

variable (s : Session)

theorem excused_queue (place : Nat) :
    s.excused.queue[place]? = (s.queue[place]?).map Message.excused := List.getElem?_map

theorem excused_round : s.excused.round = s.round.map Round.excused := rfl

theorem excused_signatureRound :
    s.excused.signatureRound = s.signatureRound.map SignatureRound.excused := rfl

theorem roundProblems_excused (c : Round) :
    s.excused.roundProblems c.excused = s.roundProblems c :=
  if_congr Iff.rfl (failures_excused completionFailure c.replies) rfl

theorem helpProblems_excused (g : SignatureRound) :
    s.excused.helpProblems g.excused = s.helpProblems g :=
  if_congr Iff.rfl (failures_excused helpFailure g.replies) rfl

theorem completionProblems_excused (server : ServerId) (reply : Reply) :
    s.excused.completionProblems server reply.excused = s.completionProblems server reply := by
  unfold completionProblems
  rw [excused_round]
  cases s.round with
  | none => rfl
  | some c =>
    have hround := s.roundProblems_excused (c.record server reply)
    rw [c.excused_record] at hround
    exact if_congr Iff.rfl hround rfl

theorem signatureProblems_excused (server : ServerId) (reply : Reply) :
    s.excused.signatureProblems server reply.excused = s.signatureProblems server reply := by
  unfold signatureProblems
  rw [excused_signatureRound]
  cases s.signatureRound with
  | none => rfl
  | some g =>
    have hround := s.helpProblems_excused (g.record server reply)
    rw [g.excused_record] at hround
    exact if_congr Iff.rfl hround rfl

theorem resolutionProblems_excused (p : PendingResolve) (reply : Reply) :
    s.excused.resolutionProblems p reply.excused = s.resolutionProblems p reply := by
  rw [resolutionProblems, answerProblems_excused, resolvedCommand?_excused]
  rfl

theorem detachedHelpProblems_excused (server : ServerId) :
    s.excused.detachedHelpProblems server = s.detachedHelpProblems server := by
  unfold detachedHelpProblems
  rw [excused_signatureRound]
  cases s.signatureRound with
  | none => rfl
  | some g => exact if_congr Iff.rfl (s.helpProblems_excused (g.without server)) rfl

theorem detachedRoundProblems_excused (server : ServerId) :
    s.excused.detachedRoundProblems server = s.detachedRoundProblems server := by
  unfold detachedRoundProblems
  rw [excused_round]
  cases s.round with
  | none => rfl
  | some c =>
    have hround := s.roundProblems_excused (c.drop server)
    have hempty : (c.drop server).excused.replies.isEmpty = (c.drop server).replies.isEmpty := by
      simp [Round.excused, Table.isEmpty, Table.map]
    rw [c.excused_drop] at hround hempty
    dsimp only [Option.map_some]
    rw [hround, hempty]
    rfl

theorem messageProblems_excused (m : Message) :
    s.excused.messageProblems m.excused = s.messageProblems m := by
  cases m with
  | timer kind serial => rfl
  | reply n server purpose answer =>
    cases purpose with
    | completion id => exact if_congr Iff.rfl (s.completionProblems_excused server answer) rfl
    | signatureHelp => exact if_congr Iff.rfl (s.signatureProblems_excused server answer) rfl
    | resolve =>
      have hheld := funext fun p => s.resolutionProblems_excused p answer
      exact if_congr Iff.rfl (congrArg (fun f => (s.resolve.map f).getD []) hheld) rfl
    | command name => rfl

/-- What a session tries to report does not depend on whether requests were cancelled. -/
theorem problems_excused (a : Action) : s.excused.problems a = s.problems a := by
  cases a with
  | deliver place =>
    unfold problems
    dsimp only
    rw [excused_queue]
    cases s.queue[place]? with
    | none => rfl
    | some m => exact s.messageProblems_excused m
  | perform o =>
    obtain ⟨o, ho⟩ := o
    cases o with
    | detach server =>
      refine if_congr Iff.rfl ?_ rfl
      rw [detachedHelpProblems_excused, detachedRoundProblems_excused]
    | _ => rfl

/-- All problems that would come to light in a run if, at every step, the requests cancelled so far had
been answered with nothing. -/
def excusedProblemsOf : Session → List Action → List Problem
  | _, [] => []
  | s, a :: rest => s.excused.problems a ++ excusedProblemsOf (s.act a) rest

theorem excusedProblemsOf_eq (actions : List Action) :
    excusedProblemsOf s actions = problemsOf s actions := by
  induction actions generalizing s with
  | nil => rfl
  | cons a rest ih => rw [excusedProblemsOf, problemsOf, problems_excused, ih]

/-- In every run, the user is told of the same problems as if each request that was cancelled had been
answered with nothing. Only commands make a difference: the error of a command is told, even if it says
that the command was cancelled. -/
theorem cancellations_untold_exceptCommands (setup : Setup) (actions : List Action) :
    let s := setup.session.after actions
    (∀ a, Reports s (s.excused.problems a) (s.act a)) ∧
      s.notifications = firsts (excusedProblemsOf setup.session actions) ∧
      ∀ place n server name e,
        s.queue[place]? = some (.reply n server (.command name) (.error e)) →
        let text := s!"Command {name} failed on {server.display}: {e.message}"
        Reports s [(.warning, text)] (s.deliver place) ∧ text ∈ (s.deliver place).notices := by
  intro s
  have hadvancing : Advancing s := after_advancing setup actions
  have hcandid : Candid s := after_candid setup actions
  refine ⟨?_, ?_, ?_⟩
  · intro a
    rw [problems_excused]
    exact hadvancing.act_reports hcandid a
  · have hreports := (advancing_setup setup).after_reports (candid_setup setup) actions
    have hnone : setup.session.notifications = firsts [] := rfl
    rw [excusedProblemsOf_eq]
    exact hreports.notifications (candid_setup setup) hnone
  · intro place n server name e hm text
    have hreports := hadvancing.deliver_reports hcandid place
    rw [hm] at hreports
    exact ⟨hreports, (hreports.told hcandid).2 _ List.mem_cons_self⟩

/-- A server cancels a completion request, and then a command. -/
def cancelledTwice : Setup × List Action :=
  ({ config := {}, uri := "file:///a", lines := [[]], cursor := ⟨0, 0⟩, missing := [],
     signatureView := false, snippets := [], matcher := ⟨fun _ _ => true⟩, commands := none,
     cancellable := true },
   [.attach ⟨1⟩ { completion := some {}, commands := ["a.run"] } {}, .triggerCompletion,
    .respond (.number 0) (.error ⟨-32800, "cancelled"⟩), .deliver 0,
    .completeDone (.given (.ofPayload
      ⟨⟨1⟩, { label := "foo", command := some ⟨"Run", "a.run", none⟩ }⟩ false 0)),
    .respond (.number 1) (.error ⟨-32800, "cancelled"⟩)])

/-- The user is told of the command, but not of the completion request. -/
theorem cancellations_untold_exceptCommands_cancelledTwice :
    let s := cancelledTwice.1.session.after cancelledTwice.2
    s.notifications = [] ∧ "Command a.run failed on server#1: cancelled" ∈ (s.deliver 0).notices := by
  intro s
  obtain ⟨_, htold, hcommand⟩ :=
    cancellations_untold_exceptCommands cancelledTwice.1 cancelledTwice.2
  have hqueue : s.queue[0]? =
      some (.reply 1 ⟨1⟩ (.command "a.run") (.error ⟨-32800, "cancelled"⟩)) := by
    with_unfolding_all rfl
  exact ⟨htold.trans (by decide +kernel), (hcommand 0 1 ⟨1⟩ "a.run" _ hqueue).2⟩

end Session
end Autocomplete

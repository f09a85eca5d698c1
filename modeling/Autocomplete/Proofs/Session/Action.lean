import Autocomplete.Session.Operation
import Autocomplete.Session.Setup

/-! Runs of a session, one message at a time. The editor may hand over the messages that wait in any
order, and an operation that handles several of them is a run of its own. -/
namespace Autocomplete

/-- Whether an operation handles none of the messages that wait. -/
def Operation.direct : Operation → Bool
  | .drain => false
  | .advance _ => false
  | .next _ => false
  | _ => true

/-- Whether an operation only changes what is around a session, which is told nothing. -/
def Operation.isOutside : Operation → Bool
  | .insertText _ => true
  | .backspace => true
  | .setCursor _ => true
  | .setInserting _ => true
  | .setVisible _ => true
  | .setAvailable .. => true
  | .registerGlobal .. => true
  | .unregisterGlobal _ => true
  | .answerAlways .. => true
  | .respond .. => true
  | .elapse _ => true
  | _ => false

abbrev DirectOperation := { o : Operation // o.direct = true }

inductive Action where
  | perform (o : DirectOperation)
  /-- The message at some place of the queue is handled. -/
  | deliver (place : Nat)

theorem Operation.triggerCompletion_direct : Operation.triggerCompletion.direct = true := rfl

namespace Action

def attach (server : ServerId) (capabilities : Capabilities) (options : AttachOptions) : Action :=
  .perform ⟨.attach server capabilities options, rfl⟩

def detach (server : ServerId) : Action := .perform ⟨.detach server, rfl⟩

def triggerCompletion : Action :=
  .perform ⟨.triggerCompletion, Operation.triggerCompletion_direct⟩

def respond (target : Target) (reply : Reply) : Action := .perform ⟨.respond target reply, rfl⟩

def setCursor (cursor : Cursor) : Action := .perform ⟨.setCursor cursor, rfl⟩

def setInserting (inserting : Bool) : Action := .perform ⟨.setInserting inserting, rfl⟩

def setVisible (visible : Bool) : Action := .perform ⟨.setVisible visible, rfl⟩

def typeChar (c : Char) : Action := .perform ⟨.typeChar c, rfl⟩

def acceptPending : Action := .perform ⟨.acceptPending, rfl⟩

def completeDone (selection : Selection) : Action := .perform ⟨.completeDone selection, rfl⟩

def elapse (ms : Nat) : Action := .perform ⟨.elapse ms, rfl⟩

end Action

namespace Session

def deliver (s : Session) (place : Nat) : Session :=
  match s.queue[place]? with
  | some m =>
    let rest := { s with queue := s.queue.eraseIdx place }
    rest.handle (rest.isLive m) m
  | none => s

/-- Taking a message from the queue does not change whether anybody cares for it. -/
theorem deliver_eq {s : Session} {place : Nat} {m : Message} (hm : s.queue[place]? = some m) :
    s.deliver place =
      ({ s with queue := s.queue.eraseIdx place } : Session).handle (s.isLive m) m := by
  unfold deliver
  rw [hm]
  cases m <;> rfl

def act (s : Session) : Action → Session
  | .perform o => (s.apply o).1
  | .deliver place => s.deliver place

def after (s : Session) (actions : List Action) : Session := actions.foldl act s

theorem after_append (s : Session) (a b : List Action) :
    s.after (a ++ b) = (s.after a).after b := List.foldl_append

theorem after_concat (s : Session) (as : List Action) (a : Action) :
    s.after (as ++ [a]) = (s.after as).act a := after_append s as [a]

theorem handleNext_eq_deliver {s t : Session} (h : s.handleNext = some t) : s.deliver 0 = t := by
  unfold handleNext nextMessage? at h
  unfold deliver
  cases hq : s.queue with
  | nil => simp [hq] at h
  | cons m rest => simpa [hq] using h

theorem drainUpTo_eq_after (fuel : Nat) (s : Session) :
    ∃ as, (drainUpTo fuel s).1 = s.after as := by
  induction fuel generalizing s with
  | zero => exact ⟨[], rfl⟩
  | succ fuel ih =>
    simp only [drainUpTo]
    cases hn : s.handleNext with
    | none => exact ⟨[], rfl⟩
    | some t =>
      obtain ⟨as, has⟩ := ih t
      exact ⟨.deliver 0 :: as, has.trans (by rw [← handleNext_eq_deliver hn]; rfl)⟩

theorem await_eq_after (s : Session) (ms : Nat) : ∃ as, s.await ms = s.after as := by
  unfold await
  simp only
  split
  · exact ⟨[.perform ⟨.elapse 0, rfl⟩, .perform ⟨.elapse _, rfl⟩], rfl⟩
  · exact ⟨[.perform ⟨.elapse 0, rfl⟩], rfl⟩

theorem next_eq_after (s : Session) (ms : Nat) : ∃ as, (s.next ms).1 = s.after as := by
  obtain ⟨as, has⟩ := s.await_eq_after ms
  unfold next
  simp only
  cases hn : (s.await ms).handleNext with
  | none => exact ⟨as, has⟩
  | some t =>
    refine ⟨as ++ [.deliver 0], ?_⟩
    rw [after_concat, ← has]
    exact (handleNext_eq_deliver hn).symm

/-- Every operation is a run of actions. -/
theorem apply_eq_after (s : Session) (o : Operation) : ∃ as, (s.apply o).1 = s.after as := by
  cases o
  case drain => exact drainUpTo_eq_after _ s
  case advance ms =>
    obtain ⟨as, has⟩ := drainUpTo_eq_after (s.elapse ms).backlog (s.elapse ms)
    exact ⟨.perform ⟨.elapse ms, rfl⟩ :: as, has⟩
  case next ms => exact s.next_eq_after ms
  all_goals exact ⟨[.perform ⟨_, rfl⟩], rfl⟩

/-- Whatever holds after all runs of actions holds after all runs of operations. -/
theorem run_eq_after (s : Session) (os : List Operation) : ∃ as, s.run os = s.after as := by
  induction os generalizing s with
  | nil => exact ⟨[], rfl⟩
  | cons o os ih =>
    obtain ⟨as, has⟩ := s.apply_eq_after o
    obtain ⟨bs, hbs⟩ := ih (s.after as)
    refine ⟨as ++ bs, ?_⟩
    rw [after_append, ← hbs, ← has]
    rfl

end Session
end Autocomplete

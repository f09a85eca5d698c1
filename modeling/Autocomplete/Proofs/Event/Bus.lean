import Autocomplete.Event.Bus
import Mathlib.Data.List.Induction
import Mathlib.Data.List.TakeWhile

/-! Runs of an event bus. The receivers are accounted for one by one: what a receiver has got, and then
what waits in its queue, are the events dispatched since it subscribed, up to where it was closed or
dropped. Whatever happens to the other receivers makes no difference. -/
namespace Autocomplete

/-- What happens to an event bus. Receivers are numbered in the order in which they subscribe. -/
inductive BusAction where
  | subscribe
  | dispatch (e : Event)
  | receive (receiver : Nat)
  | close (receiver : Nat)
  | drop (receiver : Nat)
  deriving DecidableEq

/-- A receiver, and what has happened since it subscribed. -/
structure Subscription where
  receiver : Nat
  later : List BusAction
  deriving DecidableEq

namespace BusAction

def event? : BusAction → Option Event
  | .dispatch e => some e
  | _ => none

def dispatched (actions : List BusAction) : List Event := actions.filterMap event?

/-- Whether a receiver is sent no more events from now on. -/
def ends (receiver : Nat) (a : BusAction) : Bool := a == .close receiver || a == .drop receiver

/-- The subscriptions of a run, the first of which has the given number. -/
def subscriptionsFrom (n : Nat) : List BusAction → List Subscription
  | [] => []
  | .subscribe :: rest => ⟨n, rest⟩ :: subscriptionsFrom (n + 1) rest
  | _ :: rest => subscriptionsFrom n rest

def subscriptions (actions : List BusAction) : List Subscription := subscriptionsFrom 0 actions

end BusAction

namespace Subscription

def append (s : Subscription) (a : BusAction) : Subscription := { s with later := s.later ++ [a] }

/-- The receiver was neither closed nor dropped. -/
def isOpen (s : Subscription) : Bool := s.later.all fun a => !a.ends s.receiver

/-- The events that are for the receiver: those dispatched before it is closed or dropped. -/
def due (s : Subscription) : List Event :=
  BusAction.dispatched (s.later.takeWhile fun a => !a.ends s.receiver)

end Subscription

namespace Receiver

/-- What happens to the receiver of some number. -/
def act (n : Nat) (r : Receiver) : BusAction → Receiver
  | .subscribe => r
  | .dispatch e => r.offer e
  | .receive k => if k = n then r.receive.1 else r
  | .close k => if k = n then r.close else r
  | .drop k => if k = n then r.drop else r

/-- What the receiver of some number gets. -/
def got? (n : Nat) (r : Receiver) : BusAction → Option Event
  | .receive k => if k = n then r.receive.2 else none
  | _ => none

end Receiver

namespace EventBus

def act (bus : EventBus) : BusAction → EventBus
  | .subscribe => bus.subscribe.1
  | .dispatch e => bus.dispatch e
  | .receive n => (bus.receive n).1
  | .close n => bus.close n
  | .drop n => bus.drop n

def after (bus : EventBus) (actions : List BusAction) : EventBus := actions.foldl act bus

/-- The event that a receiver gets from an action, if it is the one that asks for it. -/
def got? (bus : EventBus) (n : Nat) : BusAction → Option Event
  | .receive k => if k = n then (bus.receive k).2 else none
  | _ => none

/-- The events that a receiver gets in a run. -/
def received (n : Nat) : EventBus → List BusAction → List Event
  | _, [] => []
  | bus, a :: rest => (bus.got? n a).toList ++ received n (bus.act a) rest

end EventBus

namespace BusAction

theorem subscriptionsFrom_concat (n : Nat) (actions : List BusAction) (a : BusAction) :
    subscriptionsFrom n (actions ++ [a]) = (subscriptionsFrom n actions).map (·.append a) ++
      if a = .subscribe then [⟨n + (subscriptionsFrom n actions).length, []⟩] else [] := by
  induction actions generalizing n with
  | nil => cases a <;> simp [subscriptionsFrom]
  | cons b rest ih =>
    cases b with
    | subscribe =>
      simp only [List.cons_append, subscriptionsFrom, ih, List.map_cons, List.length_cons,
        Subscription.append]
      congr 5
      omega
    | _ => simpa only [List.cons_append, subscriptionsFrom] using ih n

theorem subscriptions_concat (actions : List BusAction) (a : BusAction) :
    subscriptions (actions ++ [a]) = (subscriptions actions).map (·.append a) ++
      if a = .subscribe then [⟨(subscriptions actions).length, []⟩] else [] := by
  simpa only [subscriptions, Nat.zero_add] using subscriptionsFrom_concat 0 actions a

theorem event?_of_ends {n : Nat} {a : BusAction} (h : a.ends n = true) : a.event? = none := by
  cases a <;> simp_all [ends, event?]

end BusAction

namespace Subscription
open BusAction

theorem isOpen_append (s : Subscription) (a : BusAction) :
    (s.append a).isOpen = (s.isOpen && !a.ends s.receiver) := by
  simp [isOpen, append]

theorem due_append (s : Subscription) (a : BusAction) :
    (s.append a).due = s.due ++ if s.isOpen then a.event?.toList else [] := by
  simp only [due, append]
  by_cases h : s.isOpen = true
  · have hall : ∀ b ∈ s.later, (!b.ends s.receiver) = true := List.all_eq_true.mp h
    rw [List.takeWhile_append_of_pos hall, if_pos h, List.takeWhile_eq_self_iff.mpr hall]
    cases ha : a.ends s.receiver with
    | true => simp [dispatched, ha, event?_of_ends ha]
    | false => cases he : a.event? <;> simp [dispatched, ha, he]
  · have hne : (s.later.takeWhile fun b => !b.ends s.receiver).length ≠ s.later.length := by
      intro hl
      have heq := (List.takeWhile_prefix _).eq_of_length hl
      exact h (List.all_eq_true.mpr (List.takeWhile_eq_self_iff.mp heq))
    rw [List.takeWhile_append, if_neg hne, if_neg h, List.append_nil]

/-- All events for a receiver are dispatched before it is dropped. -/
theorem due_prefix_beforeDrop (s : Subscription) :
    s.due <+: dispatched (s.later.takeWhile fun a => a ≠ .drop s.receiver) := by
  have hsame : (s.later.takeWhile fun a => !a.ends s.receiver) =
      (s.later.takeWhile fun a => a ≠ .drop s.receiver).takeWhile fun a => !a.ends s.receiver := by
    rw [List.takeWhile_takeWhile]
    congr 1
    funext a
    by_cases ha : a = .drop s.receiver
    · simp [ha, ends]
    · simp [ends, beq_eq_decide, ha]
  rw [due, hsame]
  exact (List.takeWhile_prefix _).filterMap _

end Subscription

theorem Receiver.receive_of_dropped {r : Receiver} (h : r.state = .dropped) :
    r.receive = (r, none) := by
  simp [receive, h]

theorem Receiver.receive_of_empty {r : Receiver} (h : r.queue = []) : r.receive = (r, none) := by
  cases hs : r.state <;> simp [receive, h, hs]

theorem Receiver.receive_of_cons {r : Receiver} {e : Event} {rest : List Event}
    (hd : r.state ≠ .dropped) (h : r.queue = e :: rest) :
    r.receive = ({ r with queue := rest }, some e) := by
  cases hs : r.state with
  | dropped => exact absurd hs hd
  | receiving => simp [receive, h, hs]
  | closed => simp [receive, h, hs]

/-- How a receiver stands to what has happened since it subscribed and to what it has got. -/
structure Receiver.Accounts (r : Receiver) (s : Subscription) (got : List Event) : Prop where
  dropped : r.state = .dropped ↔ .drop s.receiver ∈ s.later
  receiving : r.state = .receiving ↔ s.isOpen = true
  subscribed : r.state = .receiving → r.subscribed = true
  exact : r.state ≠ .dropped → got ++ r.queue = s.due
  within : got <+: s.due

namespace Receiver.Accounts
open BusAction

variable {r : Receiver} {s : Subscription} {got : List Event}

theorem initial (n : Nat) : ({} : Receiver).Accounts ⟨n, []⟩ [] := by
  constructor <;> simp [Subscription.isOpen, Subscription.due, dispatched]

/-- An action that neither concerns the receiver nor dispatches an event changes nothing. -/
theorem aside (h : r.Accounts s got) {a : BusAction} (he : a.event? = none)
    (hends : a.ends s.receiver = false) : r.Accounts (s.append a) got where
  dropped := by
    have hne : a ≠ .drop s.receiver := fun ha => by simp [ha, ends] at hends
    simp [h.dropped, Subscription.append, hne.symm]
  receiving := by rw [h.receiving, Subscription.isOpen_append, hends, Bool.not_false, Bool.and_true]
  subscribed := h.subscribed
  exact hd := by simp [Subscription.due_append, he, h.exact hd]
  within := by simpa [Subscription.due_append, he] using h.within

theorem dispatch (h : r.Accounts s got) (e : Event) :
    (r.offer e).Accounts (s.append (.dispatch e)) got := by
  by_cases hr : r.state = .receiving
  · have hopen : s.isOpen = true := h.receiving.mp hr
    have hdue : (s.append (.dispatch e)).due = s.due ++ [e] := by
      simp [Subscription.due_append, hopen, event?]
    have hoffer : r.offer e = { r with queue := r.queue ++ [e] } := by
      simp [Receiver.offer, h.subscribed hr, hr]
    rw [hoffer]
    constructor
    · simp [h.dropped, Subscription.append]
    · simp [Subscription.isOpen_append, hr, hopen, ends]
    · exact h.subscribed
    · intro hd
      rw [hdue, ← h.exact hd, List.append_assoc]
    · rw [hdue]
      exact h.within.trans (List.prefix_append ..)
  · have hclosed : s.isOpen ≠ true := fun ho => hr (h.receiving.mpr ho)
    have hdue : (s.append (.dispatch e)).due = s.due := by
      simp [Subscription.due_append, hclosed]
    have hstate : (r.offer e).state = r.state := by
      by_cases hs : r.subscribed = true <;> simp [Receiver.offer, hs, hr]
    have hqueue : (r.offer e).queue = r.queue := by
      by_cases hs : r.subscribed = true <;> simp [Receiver.offer, hs, hr]
    constructor
    · simp [hstate, h.dropped, Subscription.append]
    · simp [hstate, hr, Subscription.isOpen_append, hclosed]
    · intro ho
      exact absurd (hstate ▸ ho) hr
    · intro hd
      rw [hqueue, hdue, h.exact (hstate ▸ hd)]
    · rw [hdue]
      exact h.within

theorem receive (h : r.Accounts s got) {a : BusAction} (he : a.event? = none)
    (hends : a.ends s.receiver = false) :
    r.receive.1.Accounts (s.append a) (got ++ r.receive.2.toList) := by
  have haside := h.aside he hends
  by_cases hd : r.state = .dropped
  · simpa [Receiver.receive_of_dropped hd] using haside
  cases hq : r.queue with
  | nil => simpa [Receiver.receive_of_empty hq] using haside
  | cons e rest =>
    -- The event goes from the queue to those that were received.
    have hexact : (got ++ [e]) ++ rest = (s.append a).due := by
      rw [← haside.exact hd, hq, List.append_assoc, List.singleton_append]
    rw [Receiver.receive_of_cons hd hq]
    exact ⟨haside.dropped, haside.receiving, haside.subscribed, fun _ => hexact, ⟨rest, hexact⟩⟩

theorem close (h : r.Accounts s got) : r.close.Accounts (s.append (.close s.receiver)) got := by
  have hdue : (s.append (.close s.receiver)).due = s.due := by
    simp [Subscription.due_append, event?]
  have hdropped : r.close.state = .dropped ↔ r.state = .dropped := by
    unfold Receiver.close
    split <;> simp_all
  have hqueue : r.close.queue = r.queue := by
    unfold Receiver.close
    split <;> rfl
  have hshut : r.close.state ≠ .receiving := by
    unfold Receiver.close
    split <;> simp_all
  constructor
  · simp [hdropped, h.dropped, Subscription.append]
  · simp [hshut, Subscription.isOpen_append, ends]
  · intro ho
    exact absurd ho hshut
  · intro hd
    rw [hqueue, hdue, h.exact fun hr => hd (hdropped.mpr hr)]
  · rw [hdue]
    exact h.within

theorem drop (h : r.Accounts s got) : r.drop.Accounts (s.append (.drop s.receiver)) got := by
  constructor
  · simp [Receiver.drop, Subscription.append]
  · simp [Receiver.drop, Subscription.isOpen_append, ends]
  · simp [Receiver.drop]
  · simp [Receiver.drop]
  · simpa [Subscription.due_append, event?] using h.within

/-- A dispatch keeps a receiver subscribed while it is open, and only then. -/
theorem subscribed_offer (h : r.Accounts s got) (e : Event) :
    (r.offer e).subscribed = s.isOpen := by
  by_cases hr : r.state = .receiving
  · simp [Receiver.offer, h.subscribed hr, hr, h.receiving.mp hr]
  · have hclosed : s.isOpen = false := by
      simpa using fun ho => hr (h.receiving.mpr ho)
    by_cases hs : r.subscribed = true <;> simp [Receiver.offer, hs, hr, hclosed]

/-- Whatever happens, the receiver stays accounted for. -/
theorem act (h : r.Accounts s got) (a : BusAction) :
    (r.act s.receiver a).Accounts (s.append a) (got ++ (r.got? s.receiver a).toList) := by
  cases a with
  | subscribe => simpa [Receiver.act, Receiver.got?] using h.aside rfl rfl
  | dispatch e => simpa [Receiver.act, Receiver.got?] using h.dispatch e
  | receive k =>
    by_cases hk : k = s.receiver
    · simpa [Receiver.act, Receiver.got?, hk] using h.receive (a := .receive k) rfl rfl
    · simpa [Receiver.act, Receiver.got?, hk] using h.aside (a := .receive k) rfl rfl
  | close k =>
    by_cases hk : k = s.receiver
    · simpa [Receiver.act, Receiver.got?, hk] using h.close
    · simpa [Receiver.act, Receiver.got?, hk] using
        h.aside (a := .close k) rfl (by simp [ends, hk])
  | drop k =>
    by_cases hk : k = s.receiver
    · simpa [Receiver.act, Receiver.got?, hk] using h.drop
    · simpa [Receiver.act, Receiver.got?, hk] using
        h.aside (a := .drop k) rfl (by simp [ends, hk])

end Receiver.Accounts

namespace EventBus
open BusAction

/-- Every receiver goes its own way, and a new one comes after all others. -/
theorem receivers_act (bus : EventBus) (a : BusAction) :
    (bus.act a).receivers = bus.receivers.mapIdx (fun n r => r.act n a) ++
      if a = .subscribe then [({} : Receiver)] else [] := by
  cases a with
  | subscribe =>
    have hsame : bus.receivers.mapIdx (fun n r => r.act n .subscribe) = bus.receivers :=
      List.ext_getElem? fun n => by simp [Receiver.act]
    simp [act, subscribe, hsame]
  | dispatch e =>
    refine List.ext_getElem? fun n => ?_
    simp [act, EventBus.dispatch, Receiver.act]
  | receive k =>
    refine List.ext_getElem? fun n => ?_
    cases hr : bus.receivers[k]? with
    | none =>
      by_cases hk : k = n
      · simp [act, receive, hr, hk ▸ hr]
      · simp [act, receive, hr, Receiver.act, hk]
    | some r =>
      by_cases hk : k = n
      · subst hk
        have hset : (bus.receivers.set k r.receive.1)[k]? = some r.receive.1 :=
          List.getElem?_set_self (List.getElem?_eq_some_iff.mp hr).1
        simp [act, receive, hr, Receiver.act, hset]
      · simp [act, receive, hr, Receiver.act, hk]
  | close k =>
    refine List.ext_getElem? fun n => ?_
    by_cases hk : k = n <;> simp [act, close, Receiver.act, hk]
  | drop k =>
    refine List.ext_getElem? fun n => ?_
    by_cases hk : k = n <;> simp [act, drop, Receiver.act, hk]

theorem got?_eq (bus : EventBus) (n : Nat) (a : BusAction) :
    bus.got? n a = bus.receivers[n]?.bind (·.got? n a) := by
  cases a with
  | receive k =>
    by_cases hk : k = n
    · subst hk
      cases hr : bus.receivers[k]? <;> simp [got?, Receiver.got?, receive, hr]
    · simp [got?, Receiver.got?, hk]
  | _ => cases bus.receivers[n]? <;> rfl

theorem received_concat (bus : EventBus) (n : Nat) (actions : List BusAction) (a : BusAction) :
    received n bus (actions ++ [a]) =
      received n bus actions ++ ((bus.after actions).got? n a).toList := by
  induction actions generalizing bus with
  | nil => simp [received, after]
  | cons b rest ih => simp [received, ih, after]

theorem after_concat (bus : EventBus) (actions : List BusAction) (a : BusAction) :
    bus.after (actions ++ [a]) = (bus.after actions).act a := by
  simp [after]

theorem receivers_length (actions : List BusAction) :
    (after {} actions).receivers.length = (subscriptions actions).length := by
  induction actions using List.reverseRecOn with
  | nil => rfl
  | append_singleton actions a ih =>
    rw [after_concat, receivers_act, subscriptions_concat]
    split <;> simpa using ih

/-- Nobody gets an event before subscribing. -/
theorem received_early (actions : List BusAction) {n : Nat}
    (hn : (subscriptions actions).length ≤ n) : received n {} actions = [] := by
  induction actions using List.reverseRecOn with
  | nil => rfl
  | append_singleton actions a ih =>
    have hbefore : (subscriptions actions).length ≤ n := by
      rw [subscriptions_concat, List.length_append, List.length_map] at hn
      exact Nat.le_of_add_right_le hn
    have hnone : (after {} actions).receivers[n]? = none :=
      List.getElem?_eq_none (receivers_length actions ▸ hbefore)
    simp [received_concat, ih hbefore, got?_eq, hnone]

/-- The receivers of a run stand to it as they should, each by itself. -/
theorem accounts (actions : List BusAction) {n : Nat} {s : Subscription}
    (hs : (subscriptions actions)[n]? = some s) :
    s.receiver = n ∧ ∃ r, (after {} actions).receivers[n]? = some r ∧
      r.Accounts s (received n {} actions) := by
  induction actions using List.reverseRecOn generalizing s with
  | nil => simp [subscriptions, subscriptionsFrom] at hs
  | append_singleton actions a ih =>
    have hlength := receivers_length actions
    rw [subscriptions_concat] at hs
    rw [after_concat, receivers_act, received_concat, got?_eq]
    rcases Nat.lt_or_ge n (subscriptions actions).length with hn | hn
    · -- The receiver was there before the action.
      rw [List.getElem?_append_left (by simpa using hn), List.getElem?_map,
        Option.map_eq_some_iff] at hs
      obtain ⟨s, hs, rfl⟩ := hs
      obtain ⟨rfl, r, hr, haccounts⟩ := ih hs
      refine ⟨rfl, r.act s.receiver a, ?_, ?_⟩
      · rw [List.getElem?_append_left (by simpa [hlength] using hn), List.getElem?_mapIdx, hr]
        rfl
      · rw [hr]
        exact haccounts.act a
    · -- The action subscribes it.
      have hnone : (after {} actions).receivers[n]? = none :=
        List.getElem?_eq_none (hlength ▸ hn)
      rw [List.getElem?_append_right (by simpa using hn), List.length_map] at hs
      split at hs
      next ha =>
        obtain ⟨hlast, rfl⟩ : n = (subscriptions actions).length ∧
            s = ⟨(subscriptions actions).length, []⟩ := by
          rw [List.getElem?_singleton] at hs
          split at hs
          next hz => exact ⟨by omega, (Option.some.inj hs).symm⟩
          next => cases hs
        refine ⟨hlast.symm, {}, ?_, ?_⟩
        · simp [ha, hlast, hlength]
        · rw [received_early actions hn, hnone]
          exact .initial _
      next => simp at hs

theorem subscribed_dispatch (actions : List BusAction) (e : Event) :
    ((after {} actions).dispatch e).receivers.map (·.subscribed) =
      (subscriptions actions).map (·.isOpen) := by
  refine List.ext_getElem? fun n => ?_
  rw [EventBus.dispatch, List.map_map, List.getElem?_map, List.getElem?_map]
  cases hs : (subscriptions actions)[n]? with
  | none =>
    have hnone : (after {} actions).receivers[n]? = none := by
      rw [List.getElem?_eq_none_iff] at hs ⊢
      exact receivers_length actions ▸ hs
    rw [hnone]
    rfl
  | some s =>
    obtain ⟨_, r, hr, haccounts⟩ := accounts actions hs
    rw [hr]
    exact congrArg some (haccounts.subscribed_offer e)

/-- A receiver that is still there has got, and will get, exactly the events dispatched between its
subscription and its closing, if any, in their order. One that is gone has got the first of them, and
none that was dispatched later. Those that a dispatch leaves subscribed were neither closed nor
dropped. -/
theorem events_deliveredOnce (actions : List BusAction) :
    (∀ s ∈ subscriptions actions, ∃ r, (after {} actions).receivers[s.receiver]? = some r ∧
      (.drop s.receiver ∉ s.later → received s.receiver {} actions ++ r.queue = s.due) ∧
      (.drop s.receiver ∈ s.later → received s.receiver {} actions <+: s.due ∧
        s.due <+: dispatched (s.later.takeWhile fun a => a ≠ .drop s.receiver))) ∧
    ∀ e, ((after {} actions).dispatch e).subscriberCount =
      (subscriptions actions).countP (·.isOpen) := by
  constructor
  · intro s hs
    obtain ⟨n, hn⟩ := List.getElem?_of_mem hs
    obtain ⟨rfl, r, hr, haccounts⟩ := accounts actions hn
    refine ⟨r, hr, ?_, ?_⟩
    · intro hkept
      exact haccounts.exact fun hd => hkept (haccounts.dropped.mp hd)
    · intro _
      exact ⟨haccounts.within, s.due_prefix_beforeDrop⟩
  · intro e
    calc ((after {} actions).dispatch e).subscriberCount
        = (((after {} actions).dispatch e).receivers.map (·.subscribed)).countP id := by
          rw [List.countP_map]; rfl
      _ = ((subscriptions actions).map (·.isOpen)).countP id := by rw [subscribed_dispatch]
      _ = (subscriptions actions).countP (·.isOpen) := by rw [List.countP_map]; rfl

/-- Four receivers subscribe. The first one is closed, the second one dropped, and the last one comes
late. -/
def fourReceivers : List BusAction :=
  [.subscribe, .subscribe, .subscribe, .dispatch (.cancelled ⟨1⟩ .accepted), .receive 1, .close 0,
    .dispatch (.cancelled ⟨2⟩ .dismissed), .receive 0, .drop 1, .subscribe,
    .dispatch (.cancelled ⟨3⟩ .detached), .receive 2]

theorem events_deliveredOnce_fourReceivers :
    let bus := after {} fourReceivers
    (∃ r, bus.receivers[0]? = some r ∧
      received 0 {} fourReceivers ++ r.queue = [.cancelled ⟨1⟩ .accepted]) ∧
    received 1 {} fourReceivers <+: [.cancelled ⟨1⟩ .accepted, .cancelled ⟨2⟩ .dismissed] ∧
    (∃ r, bus.receivers[2]? = some r ∧
      received 2 {} fourReceivers ++ r.queue =
        [.cancelled ⟨1⟩ .accepted, .cancelled ⟨2⟩ .dismissed, .cancelled ⟨3⟩ .detached]) ∧
    (bus.dispatch (.cancelled ⟨4⟩ .newRequest)).subscriberCount = 2 := by
  obtain ⟨hreceivers, hcount⟩ := events_deliveredOnce fourReceivers
  refine ⟨?_, ?_, ?_, ?_⟩
  · obtain ⟨r, hr, hkept, _⟩ := hreceivers ⟨0, fourReceivers.drop 1⟩ (by decide)
    exact ⟨r, hr, hkept (by decide)⟩
  · obtain ⟨r, _, _, hgone⟩ := hreceivers ⟨1, fourReceivers.drop 2⟩ (by decide)
    exact (hgone (by decide)).1
  · obtain ⟨r, hr, hkept, _⟩ := hreceivers ⟨2, fourReceivers.drop 3⟩ (by decide)
    exact ⟨r, hr, hkept (by decide)⟩
  · rw [hcount]
    decide

end EventBus
end Autocomplete

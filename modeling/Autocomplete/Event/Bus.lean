import Autocomplete.Event

/-!
The event bus. Each receiver has a queue of its own, which holds the events dispatched while it was
subscribed. A receiver that was closed or dropped is noticed at the next dispatch, which unsubscribes
it.
-/
namespace Autocomplete

/-- Closed receivers can still be read; dropped ones are gone. -/
inductive ReceiverState where
  | receiving | closed | dropped
  deriving DecidableEq, Repr

structure Receiver where
  state : ReceiverState := .receiving
  subscribed : Bool := true
  queue : List Event := []

/-- All receivers in the order in which they subscribed. -/
structure EventBus where
  receivers : List Receiver := []
  deriving Inhabited

namespace Receiver

/-- What a dispatch does to one receiver. -/
def offer (r : Receiver) (e : Event) : Receiver :=
  if r.subscribed then
    if r.state = .receiving then { r with queue := r.queue ++ [e] } else { r with subscribed := false }
  else r

def close (r : Receiver) : Receiver :=
  if r.state = .receiving then { r with state := .closed } else r

def drop (r : Receiver) : Receiver := { r with state := .dropped, queue := [] }

/-- The next event, unless there is none or the receiver is gone. -/
def receive (r : Receiver) : Receiver × Option Event :=
  match r.state, r.queue with
  | .dropped, _ => (r, none)
  | _, [] => (r, none)
  | _, e :: rest => ({ r with queue := rest }, some e)

end Receiver

namespace EventBus

/-- Adds a receiver, whose number is returned. -/
def subscribe (bus : EventBus) : EventBus × Nat :=
  (⟨bus.receivers ++ [({} : Receiver)]⟩, bus.receivers.length)

def subscriberCount (bus : EventBus) : Nat := bus.receivers.countP (·.subscribed)

def dispatch (bus : EventBus) (e : Event) : EventBus := ⟨bus.receivers.map (·.offer e)⟩

def close (bus : EventBus) (receiver : Nat) : EventBus :=
  ⟨bus.receivers.modify receiver Receiver.close⟩

def drop (bus : EventBus) (receiver : Nat) : EventBus :=
  ⟨bus.receivers.modify receiver Receiver.drop⟩

def receive (bus : EventBus) (receiver : Nat) : EventBus × Option Event :=
  match bus.receivers[receiver]? with
  | some r => (⟨bus.receivers.set receiver r.receive.1⟩, r.receive.2)
  | none => (bus, none)

end EventBus
end Autocomplete

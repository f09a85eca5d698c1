import Autocomplete.Session.Operation

/-!
Two sessions on one clock. Time passes for both of them, but each handles its own messages, unless a
message of one is handed to the other.
-/
namespace Autocomplete

structure SessionPair where
  first : Session
  second : Session

/-- One of two sessions. -/
inductive Side where
  | first | second
  deriving DecidableEq, Repr

def Side.other : Side → Side
  | .first => .second
  | .second => .first

namespace SessionPair

def get (p : SessionPair) : Side → Session
  | .first => p.first
  | .second => p.second

def set (p : SessionPair) (side : Side) (s : Session) : SessionPair :=
  match side with
  | .first => { p with first := s }
  | .second => { p with second := s }

/-- Lets the other session catch up with the clock of this one. -/
def synchronize (p : SessionPair) (side : Side) : SessionPair :=
  let other := p.get side.other
  p.set side.other (other.elapse ((p.get side).now - other.now))

/-- Carries out an operation of one session. If that lets time pass, it does so for both. -/
def apply (p : SessionPair) (side : Side) (o : Operation) : SessionPair × Outcome :=
  let (s, outcome) := (p.get side).apply o
  let p := p.set side s
  (if o.passesTime then p.synchronize side else p, outcome)

/-- Waits for a message of the other session and lets this one handle it; returns whether there was
one. Whether the message still counts is up to the session that it belongs to. -/
def misroute (p : SessionPair) (side : Side) (ms : Nat) : SessionPair × Bool :=
  let owner := (p.get side.other).await ms
  let p := (p.set side.other owner).synchronize side.other
  match owner.nextMessage? with
  | some (m, rest) =>
    let p := p.set side.other rest
    (p.set side ((p.get side).handle (rest.isLive m) m), true)
  | none => (p, false)

end SessionPair
end Autocomplete

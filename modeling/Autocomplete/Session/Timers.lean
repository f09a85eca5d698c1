import Autocomplete.Session.State

/-!
Timers. There is at most one of each kind. A timer that is dropped, or replaced by another one, posts
no message any more, and if it has posted it already, the message no longer counts.
-/
namespace Autocomplete.Session

/-- A new timer that is due after a delay, rounded up to whole milliseconds. -/
def newTimer (s : Session) (delay : Duration) : Timer :=
  { serial := s.tokens.length, due := s.now + delay.ceilMilliseconds }

/-- The tokens after a timer is dropped. -/
def tokensWithout (s : Session) : Option Timer → List TimerToken
  | some timer => s.tokens.modify timer.serial fun token => { token with live := false }
  | none => s.tokens

def armCompletion (s : Session) (delay : Duration) (trigger : Trigger) (phase : Phase) : Session :=
  let s := s.log .trace "engine" "Arming completion timer"
    [("trigger", .str trigger.display), ("phase", .str phase.display),
     ("delay_ms", .ofNat delay.milliseconds)]
  { s with
    completionTimer := some ⟨s.newTimer delay, trigger, phase⟩
    tokens := s.tokensWithout (s.completionTimer.map (·.timer)) ++ [{ kind := .completion }] }

def dropCompletionTimer (s : Session) : Session :=
  { s with
    completionTimer := none
    tokens := s.tokensWithout (s.completionTimer.map (·.timer)) }

def armSignatureHelp (s : Session) (delay : Duration) (character : Char) : Session :=
  let s := s.log .trace "signature_help" "Scheduling signature help"
    [("trigger", .str character.toString), ("delay_ms", .ofNat delay.milliseconds)]
  { s with
    signatureTimer := some ⟨s.newTimer delay, character⟩
    tokens := s.tokensWithout (s.signatureTimer.map (·.timer)) ++ [{ kind := .signatureHelp }] }

def dropSignatureTimer (s : Session) : Session :=
  { s with
    signatureTimer := none
    tokens := s.tokensWithout (s.signatureTimer.map (·.timer)) }

/-- The message of a timer that is due and has not posted it. -/
def dueMessage? (s : Session) (kind : TimerKind) (timer : Timer) : Option Message :=
  if !timer.posted && timer.due ≤ s.now then some (.timer kind timer.serial) else none

/-- The armed timers with their kinds, the one that is due first in front. -/
def armedTimers (s : Session) : List (TimerKind × Timer) :=
  match s.completionTimer, s.signatureTimer with
  | none, none => []
  | some c, none => [(.completion, c.timer)]
  | none, some h => [(.signatureHelp, h.timer)]
  | some c, some h =>
    if c.timer.due < h.timer.due ∨ c.timer.due = h.timer.due ∧ c.timer.serial < h.timer.serial
    then [(.completion, c.timer), (.signatureHelp, h.timer)]
    else [(.signatureHelp, h.timer), (.completion, c.timer)]

/-- Lets a timer remember that it has posted its message, if it is due. -/
def markPosted (s : Session) (timer : Timer) : Timer :=
  if timer.due ≤ s.now then { timer with posted := true } else timer

/-- All timers that are due post their messages. -/
def postTimers (s : Session) : Session :=
  { s with
    queue := s.queue ++ s.armedTimers.filterMap fun (kind, timer) => s.dueMessage? kind timer
    completionTimer := s.completionTimer.map fun c => { c with timer := s.markPosted c.timer }
    signatureTimer := s.signatureTimer.map fun h => { h with timer := s.markPosted h.timer } }

/-- Time passes, in milliseconds. -/
def elapse (s : Session) (ms : Nat) : Session := { s with now := s.now + ms }.postTimers

/-- How long it takes until a timer posts its message. -/
def untilTimer? (s : Session) : Option Nat :=
  ((s.armedTimers.filter fun t => !t.2.posted).head?).map fun t => t.2.due - s.now

end Autocomplete.Session

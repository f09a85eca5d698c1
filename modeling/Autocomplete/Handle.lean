/-!
Handles of sent requests. Cancelling a handle stops the request where it was sent; that happens at
most once, and never for a transport that cannot cancel.
-/
namespace Autocomplete

structure RequestHandle where
  /-- Cancelling would still have an effect. -/
  pending : Bool
  /-- How often the request was cancelled at the transport. -/
  runs : Nat
  deriving DecidableEq, Repr

namespace RequestHandle

def cancellable : RequestHandle := ⟨true, 0⟩

/-- The handle of a transport that cannot cancel. -/
def detached : RequestHandle := ⟨false, 0⟩

def cancel (h : RequestHandle) : RequestHandle := if h.pending then ⟨false, h.runs + 1⟩ else h

theorem cancel_cancel (h : RequestHandle) : h.cancel.cancel = h.cancel := by
  cases h with
  | mk p r => cases p <;> rfl

def display (h : RequestHandle) : String :=
  "RequestHandle \x7b pending: " ++ toString h.pending ++ " \x7d"

end RequestHandle
end Autocomplete

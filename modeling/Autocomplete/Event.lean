import Autocomplete.Server
import Autocomplete.Trigger

/-!
Events: what a session publishes about its requests and about what the user accepts.
-/
namespace Autocomplete

/-- The number of a round of requests. It wraps around at 64 bits. -/
structure RequestId where
  value : UInt64
  deriving DecidableEq, Repr, Inhabited

namespace RequestId

def next (id : RequestId) : RequestId := ⟨id.value + 1⟩

def toNat (id : RequestId) : Nat := id.value.toNat

theorem toNat_next (id : RequestId) : id.next.toNat = (id.toNat + 1) % UInt64.size :=
  UInt64.toNat_add id.value 1

end RequestId

/-- Why a round of requests was given up. -/
inductive CancelReason where
  | newRequest | insertLeave | accepted | dismissed | detached
  deriving DecidableEq, Repr

namespace CancelReason

def name : CancelReason → String
  | .newRequest => "NewRequest"
  | .insertLeave => "InsertLeave"
  | .accepted => "Accepted"
  | .dismissed => "Dismissed"
  | .detached => "Detached"

end CancelReason

inductive Event where
  | requested (id : RequestId) (trigger : Trigger) (cursor : Cursor) (servers : List ServerId)
  | cancelled (id : RequestId) (reason : CancelReason)
  | resultsShown (id : RequestId) (startColumn itemCount : Nat) (isIncomplete : Bool)
      (latencyMs : Nat)
  | requestFailed (id : RequestId) (server : ServerId) (error : ResponseError)
  | itemAccepted (server : ServerId) (label : String) (expandedSnippet : Bool)
  | signatureHelpShown (server : ServerId) (signatureCount : Nat)
  deriving DecidableEq, Repr

/-- The round that an event is about. -/
def Event.requestId? : Event → Option RequestId
  | .requested id .. => some id
  | .cancelled id _ => some id
  | .resultsShown id .. => some id
  | .requestFailed id .. => some id
  | .itemAccepted .. => none
  | .signatureHelpShown .. => none

end Autocomplete

import Autocomplete.Table

/-!
Language servers as the session knows them: by number, and by the error that one may answer with.
-/
namespace Autocomplete

/-- The number under which a server is attached. -/
structure ServerId where
  index : Nat
  deriving DecidableEq, Repr, Inhabited

namespace ServerId

instance : LE ServerId := ⟨fun a b => a.index ≤ b.index⟩
instance : LT ServerId := ⟨fun a b => a.index < b.index⟩
instance : DecidableLE ServerId := fun a b => inferInstanceAs (Decidable (a.index ≤ b.index))
instance : DecidableLT ServerId := fun a b => inferInstanceAs (Decidable (a.index < b.index))

instance : Std.IsLinearOrder ServerId where
  le_refl a := Nat.le_refl a.index
  le_trans _ _ _ h h' := Nat.le_trans h h'
  le_antisymm := fun ⟨_⟩ ⟨_⟩ h h' => congrArg ServerId.mk (Nat.le_antisymm h h')
  le_total a b := Nat.le_total a.index b.index

instance : Std.LawfulOrderLT ServerId where
  lt_iff _ _ := Nat.lt_iff_le_and_not_ge

def display (server : ServerId) : String := s!"server#{server.index}"

end ServerId

/-- A finite map from servers, visited in ascending order. -/
abbrev ServerMap (ν : Type) := Table ServerId ν

/-- Why a server could not answer a request. -/
structure ResponseError where
  code : Int
  message : String
  deriving DecidableEq, Repr, Inhabited

namespace ResponseError

/-- The code of a request that was cancelled before it was answered. -/
def requestCancelled : Int := -32800

def isCancelled (e : ResponseError) : Bool := e.code == requestCancelled

def display (e : ResponseError) : String := s!"{e.message} (code {e.code})"

end ResponseError
end Autocomplete

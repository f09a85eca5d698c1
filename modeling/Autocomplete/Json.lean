import Autocomplete.Decimal
import Autocomplete.Table

/-!
JSON values as servers send them. The fields of an object have distinct names and stand in ascending
order of them; a number is an integer unless it was written with a point or an exponent.
-/
namespace Autocomplete

inductive Json where
  | null
  | bool (b : Bool)
  | int (n : Int)
  /-- A floating point number, which is not kept as an integer even where it is one. -/
  | decimal (d : Decimal)
  | str (s : String)
  | arr (items : List Json)
  | obj (fields : List (String × Json))
  deriving Inhabited

/-- The fields of an object. -/
abbrev Fields := List (String × Json)

namespace Fields

def find? (name : String) (fields : Fields) : Option Json := Entries.find? name fields

def insert (name : String) (value : Json) (fields : Fields) : Fields :=
  Entries.insert name value fields

def contains (name : String) (fields : Fields) : Bool := Entries.contains name fields

end Fields

namespace Json

def str? : Json → Option String
  | .str s => some s
  | _ => none

def bool? : Json → Option Bool
  | .bool b => some b
  | _ => none

def ofNat (n : Nat) : Json := .int n

/-- An object of the given fields, put in order; of equal names the last counts. -/
def ofFields (fields : List (String × Json)) : Json :=
  .obj (fields.foldl (fun (acc : Fields) f => acc.insert f.1 f.2) [])

/-- The fields of an object that has only those with a value. -/
def ofOptions (fields : List (String × Option Json)) : Json :=
  ofFields (fields.filterMap fun f => f.2.map (f.1, ·))

end Json
end Autocomplete

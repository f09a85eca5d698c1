import Autocomplete.Json.Printer

/-!
Strict decoding of JSON values. A decoder either yields a value of its type or names the one cause
that makes the JSON unfit. The fields of an object are looked at in ascending order of their names,
whatever the order in which a type declares them, and a missing field is noticed after all others. A
record may also be an array of the values of its fields, which are looked at in the order of the type.
-/
namespace Autocomplete

/-- Why a JSON value does not have the form that was asked for. -/
inductive DecodeError where
  | invalidType (found : Json) (expected : String)
  | outOfRange (found : Int) (expected : String)
  | invalidLength (found : Nat) (expected : String)
  | missingField (name : String)
  | noVariant (type : String)
  deriving Inhabited

namespace DecodeError
open Text

/-- How a message refers to an unfit value. -/
def describe : Json → String
  | .null => "null"
  | .bool b => "boolean `" ++ (Json.bool b).text ++ "`"
  | .int n => "integer `" ++ (Json.int n).text ++ "`"
  | .decimal d => "floating point `" ++ (Json.decimal d).text ++ "`"
  | .str s => "string " ++ quoted s
  | .arr _ => "sequence"
  | .obj _ => "map"

def message : DecodeError → String
  | .invalidType found expected => s!"invalid type: {describe found}, expected {expected}"
  | .outOfRange found expected => s!"invalid value: integer `{found}`, expected {expected}"
  | .invalidLength found expected => s!"invalid length {found}, expected {expected}"
  | .missingField name => s!"missing field `{name}`"
  | .noVariant type => s!"data did not match any variant of untagged enum {type}"

end DecodeError

/-- Reads a value of a type, or tells why there is none. -/
abbrev Decoder (α : Type) := Json → Except DecodeError α

namespace Decoder
variable {α β : Type}

def any : Decoder Json := fun v => .ok v

def string : Decoder String
  | .str s => .ok s
  | v => .error (.invalidType v "a string")

/-- One of a few names, written as a text or as the only key of an object with nothing behind it. -/
def name : Decoder String
  | .obj [(s, .null)] => .ok s
  | v => string v

def bool : Decoder Bool
  | .bool b => .ok b
  | v => .error (.invalidType v "a boolean")

/-- An integer between two bounds. -/
def integer (low high : Int) (type : String) : Decoder Int
  | .int n => if low ≤ n ∧ n ≤ high then .ok n else .error (.outOfRange n type)
  | v => .error (.invalidType v type)

def int32 : Decoder Int := integer (-0x80000000) 0x7fffffff "i32"

def int64 : Decoder Int := integer (-0x8000000000000000) 0x7fffffffffffffff "i64"

def nat32 : Decoder Nat := fun v => (integer 0 0xffffffff "u32" v).map Int.toNat

def nat64 : Decoder Nat := fun v => (integer 0 0xffffffffffffffff "u64" v).map Int.toNat

def map (f : α → β) (d : Decoder α) : Decoder β := fun v => (d v).map f

/-- `null` stands for a missing value. -/
def nullable (d : Decoder α) : Decoder (Option α)
  | .null => .ok none
  | v => (d v).map some

def items (d : Decoder α) : List Json → Except DecodeError (List α)
  | [] => .ok []
  | v :: rest => do
    let first ← d v
    let others ← items d rest
    return first :: others

def list (d : Decoder α) : Decoder (List α)
  | .arr vs => items d vs
  | v => .error (.invalidType v "a sequence")

/-- The fields of an object. -/
def fields (type : String) : Decoder Fields
  | .obj fs => .ok fs
  | v => .error (.invalidType v ("struct " ++ type))

/-- Whether a value can be read, without keeping what is read. -/
def check (d : Decoder α) : Decoder Unit := d.map fun _ => ()

/-- Checks values, as far as there are some, by the decoders of the fields that they stand for. -/
def checkValues : List (String × Decoder Unit) → List Json → Except DecodeError Unit
  | (_, d) :: members, v :: vs => do
    d v
    checkValues members vs
  | _, _ => .ok ()

/-- The fields of a record whose type has the given members: those of an object, or the values of an
array under the names of the members. -/
def record (type : String) (members : List (String × Decoder Unit)) : Decoder Fields
  | .obj fs => .ok fs
  | .arr vs => do
    checkValues members vs
    if vs.length < members.length then
      throw (.invalidLength vs.length s!"struct {type} with {members.length} elements")
    else if members.length < vs.length then
      throw (.invalidLength vs.length "fewer elements in array")
    else return (members.map (·.1)).zip vs
  | v => .error (.invalidType v ("struct " ++ type))

/-- The first of two decoders that succeeds. -/
def either (type : String) (first second : Decoder α) : Decoder α := fun v =>
  match first v with
  | .ok a => .ok a
  | .error _ =>
    match second v with
    | .ok a => .ok a
    | .error _ => .error (.noVariant type)

end Decoder

namespace Fields
variable {α β γ : Type}

/-- A field that may be missing or `null`. -/
def optional (fs : Fields) (name : String) (d : Decoder α) : Except DecodeError (Option α) :=
  match fs.find? name with
  | none => .ok none
  | some v => d.nullable v

/-- A field that has to be there; it is decoded when it is met and missed only by `present`. -/
def expected (fs : Fields) (name : String) (d : Decoder α) : Except DecodeError (Option α) :=
  match fs.find? name with
  | none => .ok none
  | some v => (d v).map some

/-- The value of a field that has to be there. -/
def present (name : String) : Option α → Except DecodeError α
  | some a => .ok a
  | none => .error (.missingField name)

/-- Two fields that have to be there. The second one has the smaller name, so that it is met first. -/
def both (fs : Fields) (first second : String) (d : Decoder α) (e : Decoder β) (make : α → β → γ) :
    Except DecodeError γ := do
  let b ← fs.expected second e
  let a ← fs.expected first d
  return make (← present first a) (← present second b)

end Fields

/-- A record with two members that have to be there, of which the second one has the smaller name. -/
def Decoder.pair {α β γ : Type} (type first second : String) (d : Decoder α) (e : Decoder β)
    (make : α → β → γ) : Decoder γ := fun v => do
  let fs ← Decoder.record type [(first, d.check), (second, e.check)] v
  fs.both first second d e make

end Autocomplete

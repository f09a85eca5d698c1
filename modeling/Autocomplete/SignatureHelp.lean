import Autocomplete.Item.Json

/-!
Signature help: the signatures of the call at the cursor, as a server sends them and as they are
handed to the view.
-/
namespace Autocomplete

/-- A parameter is named by its text or by the offsets of that text in the signature. -/
inductive ParameterLabel where
  | simple (text : String)
  | offsets (start stop : Nat)
  deriving DecidableEq, Repr

structure Parameter where
  label : ParameterLabel
  documentation : Option Documentation

structure Signature where
  label : String
  documentation : Option Documentation
  parameters : Option (List Parameter)
  activeParameter : Option Nat

structure SignatureHelp where
  signatures : List Signature
  activeSignature : Option Nat
  activeParameter : Option Nat

namespace ParameterLabel

def decodeOffsets : Decoder ParameterLabel
  | .arr [start, stop] => do
    let start ← Decoder.nat32 start
    let stop ← Decoder.nat32 stop
    return .offsets start stop
  | .arr vs => .error (.invalidLength vs.length "an array of length 2")
  | v => .error (.invalidType v "an array of length 2")

def decode : Decoder ParameterLabel :=
  Decoder.either "ParameterLabel" (Decoder.string.map .simple) decodeOffsets

def encode : ParameterLabel → Json
  | .simple text => .str text
  | .offsets start stop => .arr [.ofNat start, .ofNat stop]

end ParameterLabel

namespace Parameter

def members : List (String × Decoder Unit) :=
  [("label", ParameterLabel.decode.check), ("documentation", Documentation.decode.nullable.check)]

def decode : Decoder Parameter := fun v => do
  let fs ← Decoder.record "ParameterInformation" members v
  let documentation ← fs.optional "documentation" Documentation.decode
  let label ← fs.expected "label" ParameterLabel.decode
  return ⟨← Fields.present "label" label, documentation⟩

def encode (p : Parameter) : Json :=
  .ofOptions [("label", some p.label.encode), ("documentation", p.documentation.map (·.encode))]

end Parameter

namespace Signature

def members : List (String × Decoder Unit) :=
  [("label", Decoder.string.check), ("documentation", Documentation.decode.nullable.check),
   ("parameters", (Decoder.list Parameter.decode).nullable.check),
   ("activeParameter", Decoder.nat32.nullable.check)]

def decode : Decoder Signature := fun v => do
  let fs ← Decoder.record "SignatureInformation" members v
  let activeParameter ← fs.optional "activeParameter" Decoder.nat32
  let documentation ← fs.optional "documentation" Documentation.decode
  let label ← fs.expected "label" Decoder.string
  let parameters ← fs.optional "parameters" (Decoder.list Parameter.decode)
  return ⟨← Fields.present "label" label, documentation, parameters, activeParameter⟩

def encode (s : Signature) : Json :=
  .ofOptions [("label", some (.str s.label)), ("documentation", s.documentation.map (·.encode)),
    ("parameters", s.parameters.map fun ps => .arr (ps.map (·.encode))),
    ("activeParameter", s.activeParameter.map .ofNat)]

end Signature

namespace SignatureHelp

def members : List (String × Decoder Unit) :=
  [("signatures", (Decoder.list Signature.decode).check),
   ("activeSignature", Decoder.nat32.nullable.check),
   ("activeParameter", Decoder.nat32.nullable.check)]

def decode : Decoder SignatureHelp := fun v => do
  let fs ← Decoder.record "SignatureHelp" members v
  let activeParameter ← fs.optional "activeParameter" Decoder.nat32
  let activeSignature ← fs.optional "activeSignature" Decoder.nat32
  let signatures ← fs.expected "signatures" (Decoder.list Signature.decode)
  return ⟨← Fields.present "signatures" signatures, activeSignature, activeParameter⟩

def encode (h : SignatureHelp) : Json :=
  .ofOptions [("signatures", some (.arr (h.signatures.map (·.encode)))),
    ("activeSignature", h.activeSignature.map .ofNat),
    ("activeParameter", h.activeParameter.map .ofNat)]

end SignatureHelp
end Autocomplete

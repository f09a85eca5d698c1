import Autocomplete.Event
import Autocomplete.Item.Json

/-!
Events as JSON objects, of which the field `event` tells the kind.
-/
namespace Autocomplete

namespace RequestId

def encode (id : RequestId) : Json := .ofNat id.toNat

def decode : Decoder RequestId := Decoder.nat64.map fun n => ⟨UInt64.ofNat n⟩

end RequestId

namespace ServerId

def encode (s : ServerId) : Json := .ofNat s.index

def decode : Decoder ServerId := Decoder.nat32.map ServerId.mk

end ServerId

namespace CancelReason

def decode : Decoder CancelReason
  | .str "NewRequest" => .ok .newRequest
  | .str "InsertLeave" => .ok .insertLeave
  | .str "Accepted" => .ok .accepted
  | .str "Dismissed" => .ok .dismissed
  | .str "Detached" => .ok .detached
  | v => .error (.invalidType v "a reason")

end CancelReason

namespace Fields

/-- A field that has to be there. -/
def required {α : Type} (fs : Fields) (name : String) (d : Decoder α) : Except DecodeError α := do
  Fields.present name (← fs.expected name d)

end Fields

namespace Event

def encode : Event → Json
  | .requested id trigger cursor servers => .ofFields [("event", .str "Requested"),
      ("id", id.encode), ("trigger", trigger.encode), ("cursor", cursor.encode),
      ("servers", .arr (servers.map (·.encode)))]
  | .cancelled id reason => .ofFields [("event", .str "Cancelled"), ("id", id.encode),
      ("reason", .str reason.name)]
  | .resultsShown id startColumn itemCount isIncomplete latencyMs =>
    .ofFields [("event", .str "ResultsShown"), ("id", id.encode),
      ("start_column", .ofNat startColumn), ("item_count", .ofNat itemCount),
      ("is_incomplete", .bool isIncomplete), ("latency_ms", .ofNat latencyMs)]
  | .requestFailed id server error => .ofFields [("event", .str "RequestFailed"),
      ("id", id.encode), ("server", server.encode), ("code", .int error.code),
      ("message", .str error.message)]
  | .itemAccepted server label expandedSnippet => .ofFields [("event", .str "ItemAccepted"),
      ("server", server.encode), ("label", .str label), ("expanded_snippet", .bool expandedSnippet)]
  | .signatureHelpShown server signatureCount =>
    .ofFields [("event", .str "SignatureHelpShown"), ("server", server.encode),
      ("signature_count", .ofNat signatureCount)]

def decode : Decoder Event := fun v => do
  let fs ← Decoder.fields "Event" v
  match ← fs.required "event" Decoder.string with
  | "Requested" =>
    return .requested (← fs.required "id" RequestId.decode) (← fs.required "trigger" Trigger.decode)
      (← fs.required "cursor" Cursor.decode)
      (← fs.required "servers" (Decoder.list ServerId.decode))
  | "Cancelled" =>
    return .cancelled (← fs.required "id" RequestId.decode)
      (← fs.required "reason" CancelReason.decode)
  | "ResultsShown" =>
    return .resultsShown (← fs.required "id" RequestId.decode)
      (← fs.required "start_column" Decoder.nat64) (← fs.required "item_count" Decoder.nat64)
      (← fs.required "is_incomplete" Decoder.bool) (← fs.required "latency_ms" Decoder.nat64)
  | "RequestFailed" =>
    return .requestFailed (← fs.required "id" RequestId.decode)
      (← fs.required "server" ServerId.decode) (← ResponseError.decode v)
  | "ItemAccepted" =>
    return .itemAccepted (← fs.required "server" ServerId.decode)
      (← fs.required "label" Decoder.string) (← fs.required "expanded_snippet" Decoder.bool)
  | "SignatureHelpShown" =>
    return .signatureHelpShown (← fs.required "server" ServerId.decode)
      (← fs.required "signature_count" Decoder.nat64)
  | name => throw (.invalidType (.str name) "an event")

end Event
end Autocomplete

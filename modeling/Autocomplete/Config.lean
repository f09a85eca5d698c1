import Autocomplete.Duration
import Autocomplete.Json.Decode

/-!
The settings of a session and the options under which one server is attached. All windows are given
in milliseconds, and those of the settings have an upper bound.
-/
namespace Autocomplete

structure Config where
  /-- How long to wait before the first request. -/
  leadingMs : Nat := 25
  /-- The window between requests while the popup is open; without it the latency decides. -/
  subsequentMs : Option Nat := none
  /-- Servers filter by themselves, so results are asked for with every character. -/
  fuzzy : Bool := false
  triggerOnDelete : Bool := false
  deleteMs : Nat := 50
  signatureHelp : Bool := true
  deriving DecidableEq, Repr, Inhabited

/-- A window above the bound. -/
structure ExcessiveWindow where
  setting : String
  ms : Nat
  deriving DecidableEq, Repr, Inhabited

/-- The upper bound of all windows. -/
def maxWindowMs : Nat := 2000

def ExcessiveWindow.message (e : ExcessiveWindow) : String :=
  s!"{e.setting} = {e.ms} exceeds the maximum of {maxWindowMs} ms"

namespace Config

/-- The windows with their names, in the order in which they are checked. -/
def windows (c : Config) : List (String × Option Nat) :=
  [("leading_debounce_ms", some c.leadingMs), ("subsequent_debounce_ms", c.subsequentMs),
   ("delete_retrigger_ms", some c.deleteMs)]

/-- The first window above the bound. -/
def excessiveWindow? (c : Config) : Option ExcessiveWindow :=
  c.windows.findSome? fun w =>
    match w.2 with
    | some ms => if maxWindowMs < ms then some ⟨w.1, ms⟩ else none
    | none => none

def validate (c : Config) : Except ExcessiveWindow Unit :=
  match c.excessiveWindow? with
  | some e => .error e
  | none => .ok ()

theorem validate_eq_ok_iff (c : Config) : c.validate = .ok () ↔
    c.leadingMs ≤ maxWindowMs ∧ (∀ ms, c.subsequentMs = some ms → ms ≤ maxWindowMs) ∧
      c.deleteMs ≤ maxWindowMs := by
  obtain ⟨l, s, _, _, d, _⟩ := c
  cases s <;> by_cases hl : maxWindowMs < l <;> by_cases hd : maxWindowMs < d <;>
    grind [validate, excessiveWindow?, windows]

def leading (c : Config) : Duration := Duration.ofMilliseconds c.leadingMs

def deleteRetrigger (c : Config) : Duration := Duration.ofMilliseconds c.deleteMs

def encode (c : Config) : Json :=
  .ofFields [("leading_debounce_ms", .ofNat c.leadingMs),
    ("subsequent_debounce_ms", (c.subsequentMs.map Json.ofNat).getD .null),
    ("server_side_fuzzy_completion", .bool c.fuzzy), ("trigger_on_delete", .bool c.triggerOnDelete),
    ("delete_retrigger_ms", .ofNat c.deleteMs), ("signature_help", .bool c.signatureHelp)]

/-- A missing setting has its default. -/
def decode : Decoder Config := fun v => do
  let fs ← Decoder.fields "CompletionConfig" v
  let base : Config := {}
  return { leadingMs := (← fs.optional "leading_debounce_ms" Decoder.nat64).getD base.leadingMs
           subsequentMs := ← fs.optional "subsequent_debounce_ms" Decoder.nat64
           fuzzy := (← fs.optional "server_side_fuzzy_completion" Decoder.bool).getD base.fuzzy
           triggerOnDelete :=
             (← fs.optional "trigger_on_delete" Decoder.bool).getD base.triggerOnDelete
           deleteMs := (← fs.optional "delete_retrigger_ms" Decoder.nat64).getD base.deleteMs
           signatureHelp := (← fs.optional "signature_help" Decoder.bool).getD base.signatureHelp }

end Config

/-- What one server has of its own; the rest is taken from the settings. -/
structure AttachOptions where
  leadingMs : Option Nat := none
  subsequentMs : Option Nat := none
  fuzzy : Option Bool := none
  deriving DecidableEq, Repr, Inhabited

namespace AttachOptions

def leading (o : AttachOptions) (c : Config) : Duration :=
  Duration.ofMilliseconds (o.leadingMs.getD c.leadingMs)

def subsequent (o : AttachOptions) (c : Config) : Option Duration :=
  (o.subsequentMs <|> c.subsequentMs).map Duration.ofMilliseconds

def fuzzyIn (o : AttachOptions) (c : Config) : Bool := o.fuzzy.getD c.fuzzy

def decode : Decoder AttachOptions := fun v => do
  let fs ← Decoder.fields "AttachOptions" v
  return { leadingMs := ← fs.optional "leading_debounce_ms" Decoder.nat64
           subsequentMs := ← fs.optional "subsequent_debounce_ms" Decoder.nat64
           fuzzy := ← fs.optional "server_side_fuzzy_completion" Decoder.bool }

end AttachOptions
end Autocomplete

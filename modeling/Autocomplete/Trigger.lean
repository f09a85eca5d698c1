import Autocomplete.Position
import Autocomplete.Text.Quoted

/-!
What makes the session ask for completions, and how that is told to a server.
-/
namespace Autocomplete

inductive Trigger where
  /-- The user asked for it. -/
  | manual
  /-- A trigger character was typed. -/
  | character (c : Char)
  /-- The results shown are incomplete. -/
  | incomplete
  /-- Results of a server that filters by itself go stale with each typed character. -/
  | refresh
  /-- Text was deleted. -/
  | deletion
  deriving DecidableEq, Repr, Inhabited

namespace Trigger

/-- How a request came about, as the protocol numbers it. -/
inductive Kind where
  | invoked | triggerCharacter | incompleteResults
  deriving DecidableEq, Repr

def Kind.code : Kind → Nat
  | .invoked => 1
  | .triggerCharacter => 2
  | .incompleteResults => 3

/-- The kind told to a server; only those that registered the character hear of it. -/
def kind (registered : Bool) : Trigger → Kind
  | .character _ => if registered then .triggerCharacter else .invoked
  | .incomplete => .incompleteResults
  | _ => .invoked

def character? : Trigger → Option Char
  | .character c => some c
  | _ => none

def display : Trigger → String
  | .manual => "Manual"
  | .character c => "Character(" ++ Text.quotedChar c ++ ")"
  | .incomplete => "Incomplete"
  | .refresh => "Refresh"
  | .deletion => "Deletion"

def encode : Trigger → Json
  | .character c => .ofFields [("Character", .str c.toString)]
  | t => .str t.display

def decode : Decoder Trigger
  | .str "Manual" => .ok .manual
  | .str "Incomplete" => .ok .incomplete
  | .str "Refresh" => .ok .refresh
  | .str "Deletion" => .ok .deletion
  | .obj [("Character", .str s)] =>
    match s.toList with
    | [c] => .ok (.character c)
    | _ => .error (.invalidType (.str s) "a character")
  | v => .error (.invalidType v "a trigger")

end Trigger

namespace Cursor

def encode (c : Cursor) : Json := .arr [.ofNat c.line, .ofNat c.column]

def decode : Decoder Cursor
  | .arr [line, column] => do
    let line ← Decoder.nat32 line
    let column ← Decoder.nat64 column
    return ⟨line, column⟩
  | v => .error (.invalidType v "a cursor")

end Cursor
end Autocomplete

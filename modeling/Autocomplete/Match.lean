import Autocomplete.Item.Json
import Autocomplete.Text.Classes

/-!
Matches: what the popup shows, filters and inserts for an item. `wordFor` chooses the inserted word
from the edit, the insert text or the label.
-/
namespace Autocomplete
open Text

namespace Item

/-- The identifier at the start of a text. -/
def leadingIdentifier (text : String) : String :=
  String.ofList (text.toList.takeWhile isIdentifier)

/-- The text up to its first blank. -/
def leadingWord (text : String) : String :=
  String.ofList (text.toList.takeWhile fun c => !isBlank c)

/-- Whether a text without its first `offset` characters starts as the label does. -/
def startsLikeLabel (text : String) (offset : Nat) (label : String) : Bool :=
  match text.toList[offset]?, label.toList.head? with
  | some a, some b => a == b
  | _, _ => false

/-- The text that is put in when the item is selected. `offset` is the number of characters that the
server replaces before the typed word. -/
def wordFor (item : Item) (fuzzy : Bool) (offset : Nat) : String :=
  if item.kind = some snippetKind then item.label
  else if item.isSnippet then
    match item.textEdit with
    | some edit =>
      if fuzzy || startsLikeLabel edit.newText offset item.label then edit.newText else item.label
    | none =>
      ((item.nonemptyInsertText.map leadingIdentifier).filter (· ≠ "")).getD item.label
  else
    match item.textEdit with
    | some edit => leadingWord edit.newText
    | none => item.nonemptyInsertText.getD item.label

end Item

/-- An entry of the popup. -/
structure Match where
  word : String
  /-- The text that is shown. -/
  abbr : String
  kind : String
  menu : String
  icase : Bool
  dup : Bool
  empty : Bool
  /-- Keeps the popup from ranking by the length of the common part. -/
  equal : Bool
  payload : Payload
  deriving Inhabited

namespace Match

/-- The entry for an item. -/
def ofPayload (payload : Payload) (fuzzy : Bool) (offset : Nat) : Match :=
  { word := payload.item.wordFor fuzzy offset
    abbr := payload.item.label
    kind := Item.kindName payload.item.kind
    menu := payload.item.detail.getD ""
    icase := true
    dup := true
    empty := true
    equal := fuzzy
    payload }

def server (m : Match) : ServerId := m.payload.server

def item (m : Match) : Item := m.payload.item

/-- The text that a filter looks at. -/
def filterKey (m : Match) : String := m.item.filterText.getD m.word

def encode (m : Match) : Json :=
  .ofFields [("word", .str m.word), ("abbr", .str m.abbr), ("kind", .str m.kind),
    ("menu", .str m.menu), ("icase", .bool m.icase), ("dup", .bool m.dup),
    ("empty", .bool m.empty), ("equal", .bool m.equal), ("server", .ofNat m.server.index)]

end Match
end Autocomplete

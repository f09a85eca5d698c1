import Autocomplete.Item.Json
import Autocomplete.Logging.Record

/-!
Answers to a completion request: nothing, a list of items, or an object that has such a list together
with defaults for its items. Items that cannot be decoded are left out.
-/
namespace Autocomplete

/-- An answer before its items are decoded. -/
structure RawList where
  items : List Json := []
  isIncomplete : Bool := false
  /-- Values for the fields that an item does not have. -/
  defaults : Option Fields := none

namespace RawList

/-- There is no list in a bool, a number or a text. -/
def ofJson? : Json → Option RawList
  | .null => some {}
  | .arr items => some { items }
  | .obj fs => some {
      items := match Fields.find? "items" fs with
        | some (.arr items) => items
        | _ => []
      isIncomplete := ((Fields.find? "isIncomplete" fs).bind Json.bool?).getD false
      defaults := match Fields.find? "itemDefaults" fs with
        | some (.obj defaults) => some defaults
        | _ => none }
  | _ => none

/-- The text that an item with a default range puts in. -/
def defaultText (item : Fields) : String :=
  (["textEditText", "insertText", "label"].findSome? fun name =>
    (item.find? name).bind Json.str?).getD ""

/-- The edit of an item with a default range: one range, or an object with two of them. -/
def defaultEdit (range : Json) (text : String) : Json :=
  match range with
  | .obj fs =>
    if Fields.contains "insert" fs then .obj (Fields.insert "newText" (.str text) fs)
    else .ofFields [("range", range), ("newText", .str text)]
  | _ => .ofFields [("range", range), ("newText", .str text)]

/-- Gives an item one field, unless it has that already. A default range becomes an edit. -/
def applyDefault (item : Fields) (name : String) (value : Json) : Fields :=
  if name = "editRange" then
    if item.contains "textEdit" then item
    else item.insert "textEdit" (defaultEdit value (defaultText item))
  else if item.contains name then item
  else item.insert name value

/-- Gives an item all fields that it lacks. -/
def applyDefaults (item defaults : Fields) : Fields :=
  defaults.foldl (fun acc d => applyDefault acc d.1 d.2) item

/-- An item with the defaults of its list. -/
def complete (list : RawList) : Json → Json
  | .obj item =>
    match list.defaults with
    | some defaults => .obj (applyDefaults item defaults)
    | none => .obj item
  | v => v

end RawList

/-- An answer with its items decoded. -/
structure Response where
  items : List Item := []
  isIncomplete : Bool := false

namespace Response

def ofList (list : RawList) : Response :=
  { items := list.items.filterMap fun v => (Item.decode (list.complete v)).toOption
    isIncomplete := list.isIncomplete }

/-- Reads an answer; one without a list has no items. -/
def ofJson (v : Json) : Response :=
  match RawList.ofJson? v with
  | some list => ofList list
  | none => {}

def target : String := "quill_completion::merge"

/-- What is logged while an answer is read. -/
def diagnostics (v : Json) : List LogRecord :=
  match RawList.ofJson? v with
  | some list => list.items.filterMap fun item =>
      match Item.decode (list.complete item) with
      | .ok _ => none
      | .error _ => some ⟨.debug, target, "Skipping invalid completion item", []⟩
  | none => [⟨.debug, target, "Ignoring malformed completion response", [("response", .str v.text)]⟩]

end Response
end Autocomplete

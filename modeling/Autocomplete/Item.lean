import Autocomplete.Position
import Autocomplete.Server

/-!
Completion items: the candidates that a server offers, with the edits and the command that come with
them.
-/
namespace Autocomplete

/-- Replaces a range by a text. -/
structure TextEdit where
  range : Range
  newText : String
  deriving DecidableEq, Repr, Inhabited

/-- The edit that puts an item into the text. -/
inductive ItemEdit where
  | replace (edit : TextEdit)
  /-- Two ranges, of which the first is used to insert the item and the second to overwrite. -/
  | insertReplace (newText : String) (insert replace : Range)
  deriving DecidableEq, Repr

namespace ItemEdit

def newText : ItemEdit → String
  | .replace edit => edit.newText
  | .insertReplace newText _ _ => newText

/-- The range that is replaced when the item is inserted. -/
def range : ItemEdit → Range
  | .replace edit => edit.range
  | .insertReplace _ insert _ => insert

end ItemEdit

/-- A command to run after an item was accepted. -/
structure Command where
  title : String
  name : String
  arguments : Option (List Json)
  deriving Inhabited

structure LabelDetails where
  detail : Option String
  description : Option String
  deriving DecidableEq, Repr

inductive MarkupKind where
  | plaintext | markdown
  deriving DecidableEq, Repr

namespace MarkupKind

def name : MarkupKind → String
  | .plaintext => "plaintext"
  | .markdown => "markdown"

def ofName? : String → Option MarkupKind
  | "plaintext" => some .plaintext
  | "markdown" => some .markdown
  | _ => none

theorem ofName?_name (kind : MarkupKind) : ofName? kind.name = some kind := by cases kind <;> rfl

end MarkupKind

inductive Documentation where
  | plain (text : String)
  | markup (kind : MarkupKind) (value : String)
  deriving DecidableEq, Repr

/-- A candidate. Kinds, formats and modes are numbers of the protocol, of which a server may use
some that nobody knows. -/
structure Item where
  label : String
  labelDetails : Option LabelDetails := none
  kind : Option Int := none
  detail : Option String := none
  documentation : Option Documentation := none
  deprecated : Option Bool := none
  preselect : Option Bool := none
  sortText : Option String := none
  filterText : Option String := none
  insertText : Option String := none
  insertTextFormat : Option Int := none
  insertTextMode : Option Int := none
  textEdit : Option ItemEdit := none
  additionalTextEdits : Option (List TextEdit) := none
  command : Option Command := none
  commitCharacters : Option (List String) := none
  data : Option Json := none
  tags : Option (List Int) := none
  deriving Inhabited

namespace Item

/-- The kind of an item that is a snippet. -/
def snippetKind : Int := 15

/-- The format of an insert text with tab stops. -/
def snippetFormat : Int := 2

/-- The names of the known kinds, of which the first has number 1. -/
def kindNames : List String :=
  ["Text", "Method", "Function", "Constructor", "Field", "Variable", "Class", "Interface", "Module",
   "Property", "Unit", "Value", "Enum", "Keyword", "Snippet", "Color", "File", "Reference",
   "Folder", "EnumMember", "Constant", "Struct", "Event", "Operator", "TypeParameter"]

/-- The name shown for a kind; a missing or unknown one has none. -/
def kindName : Option Int → String
  | some n => if 1 ≤ n then (kindNames[(n - 1).toNat]?).getD "" else ""
  | none => ""

/-- Whether the insert text has tab stops. -/
def isSnippet (item : Item) : Bool := item.insertTextFormat == some snippetFormat

/-- The insert text, unless it is empty. -/
def nonemptyInsertText (item : Item) : Option String := item.insertText.filter (· ≠ "")

/-- What the server means to be put in: the text of the edit, else a nonempty insert text. -/
def replacementText (item : Item) : Option String :=
  match item.textEdit with
  | some edit => some edit.newText
  | none => item.nonemptyInsertText

/-- The range that the item's edit replaces. -/
def editRange (item : Item) : Option Range := item.textEdit.map (·.range)

/-- The text by which items are put in order. -/
def sortKey (item : Item) : String := item.sortText.getD item.label

end Item

/-- An item together with the server that sent it. -/
structure Payload where
  server : ServerId
  item : Item
  deriving Inhabited

end Autocomplete

import Autocomplete.Item

/-!
Items as JSON. Reading is strict: one unfit field makes the whole item unfit; unknown fields are
dropped, and optional ones may be `null`. Writing has only the fields that are there. The members of
each type are in the order in which an array has their values.
-/
namespace Autocomplete

namespace TextEdit

def decode : Decoder TextEdit :=
  Decoder.pair "TextEdit" "range" "newText" Range.decode Decoder.string TextEdit.mk

def encode (e : TextEdit) : Json :=
  .ofFields [("range", e.range.encode), ("newText", .str e.newText)]

end TextEdit

namespace ItemEdit

def insertReplaceMembers : List (String × Decoder Unit) :=
  [("newText", Decoder.string.check), ("insert", Range.decode.check),
   ("replace", Range.decode.check)]

def decodeInsertReplace : Decoder ItemEdit := fun v => do
  let fs ← Decoder.record "InsertReplaceEdit" insertReplaceMembers v
  let inserted ← fs.expected "insert" Range.decode
  let newText ← fs.expected "newText" Decoder.string
  let replaced ← fs.expected "replace" Range.decode
  let newText ← Fields.present "newText" newText
  return .insertReplace newText (← Fields.present "insert" inserted)
    (← Fields.present "replace" replaced)

/-- An object that has both forms counts as a plain edit. -/
def decode : Decoder ItemEdit :=
  Decoder.either "CompletionTextEdit" (TextEdit.decode.map .replace) decodeInsertReplace

def encode : ItemEdit → Json
  | .replace edit => edit.encode
  | .insertReplace newText inserted replaced =>
    .ofFields [("newText", .str newText), ("insert", inserted.encode),
      ("replace", replaced.encode)]

end ItemEdit

namespace Command

def members : List (String × Decoder Unit) :=
  [("title", Decoder.string.check), ("command", Decoder.string.check),
   ("arguments", (Decoder.list Decoder.any).nullable.check)]

def decode : Decoder Command := fun v => do
  let fs ← Decoder.record "Command" members v
  let arguments ← fs.optional "arguments" (Decoder.list Decoder.any)
  let name ← fs.expected "command" Decoder.string
  let title ← fs.expected "title" Decoder.string
  return ⟨← Fields.present "title" title, ← Fields.present "command" name, arguments⟩

def encode (c : Command) : Json :=
  .ofOptions [("title", some (.str c.title)), ("command", some (.str c.name)),
    ("arguments", c.arguments.map .arr)]

end Command

namespace LabelDetails

def members : List (String × Decoder Unit) :=
  [("detail", Decoder.string.nullable.check), ("description", Decoder.string.nullable.check)]

def decode : Decoder LabelDetails := fun v => do
  let fs ← Decoder.record "CompletionItemLabelDetails" members v
  let description ← fs.optional "description" Decoder.string
  let detail ← fs.optional "detail" Decoder.string
  return ⟨detail, description⟩

def encode (d : LabelDetails) : Json :=
  .ofOptions [("detail", d.detail.map .str), ("description", d.description.map .str)]

end LabelDetails

namespace Documentation

def decodeKind : Decoder MarkupKind := fun v => do
  match MarkupKind.ofName? (← Decoder.name v) with
  | some kind => .ok kind
  | none => .error (.invalidType v "plaintext or markdown")

def markupMembers : List (String × Decoder Unit) :=
  [("kind", decodeKind.check), ("value", Decoder.string.check)]

def decodeMarkup : Decoder Documentation := fun v => do
  let fs ← Decoder.record "MarkupContent" markupMembers v
  let kind ← fs.expected "kind" decodeKind
  let value ← fs.expected "value" Decoder.string
  return .markup (← Fields.present "kind" kind) (← Fields.present "value" value)

def decode : Decoder Documentation :=
  Decoder.either "Documentation" (Decoder.string.map .plain) decodeMarkup

def encode : Documentation → Json
  | .plain text => .str text
  | .markup kind value => .ofFields [("kind", .str kind.name), ("value", .str value)]

end Documentation

namespace Item

def members : List (String × Decoder Unit) :=
  [("label", Decoder.string.check), ("labelDetails", LabelDetails.decode.nullable.check),
   ("kind", Decoder.int32.nullable.check), ("detail", Decoder.string.nullable.check),
   ("documentation", Documentation.decode.nullable.check),
   ("deprecated", Decoder.bool.nullable.check), ("preselect", Decoder.bool.nullable.check),
   ("sortText", Decoder.string.nullable.check), ("filterText", Decoder.string.nullable.check),
   ("insertText", Decoder.string.nullable.check),
   ("insertTextFormat", Decoder.int32.nullable.check),
   ("insertTextMode", Decoder.int32.nullable.check), ("textEdit", ItemEdit.decode.nullable.check),
   ("additionalTextEdits", (Decoder.list TextEdit.decode).nullable.check),
   ("command", Command.decode.nullable.check),
   ("commitCharacters", (Decoder.list Decoder.string).nullable.check),
   ("data", Decoder.any.nullable.check), ("tags", (Decoder.list Decoder.int32).nullable.check)]

def decode : Decoder Item := fun v => do
  let fs ← Decoder.record "CompletionItem" members v
  let additionalTextEdits ← fs.optional "additionalTextEdits" (Decoder.list TextEdit.decode)
  let command ← fs.optional "command" Command.decode
  let commitCharacters ← fs.optional "commitCharacters" (Decoder.list Decoder.string)
  let data ← fs.optional "data" Decoder.any
  let deprecated ← fs.optional "deprecated" Decoder.bool
  let detail ← fs.optional "detail" Decoder.string
  let documentation ← fs.optional "documentation" Documentation.decode
  let filterText ← fs.optional "filterText" Decoder.string
  let insertText ← fs.optional "insertText" Decoder.string
  let insertTextFormat ← fs.optional "insertTextFormat" Decoder.int32
  let insertTextMode ← fs.optional "insertTextMode" Decoder.int32
  let kind ← fs.optional "kind" Decoder.int32
  let label ← fs.expected "label" Decoder.string
  let labelDetails ← fs.optional "labelDetails" LabelDetails.decode
  let preselect ← fs.optional "preselect" Decoder.bool
  let sortText ← fs.optional "sortText" Decoder.string
  let tags ← fs.optional "tags" (Decoder.list Decoder.int32)
  let textEdit ← fs.optional "textEdit" ItemEdit.decode
  let label ← Fields.present "label" label
  return { label, labelDetails, kind, detail, documentation, deprecated, preselect, sortText,
           filterText, insertText, insertTextFormat, insertTextMode, textEdit, additionalTextEdits,
           command, commitCharacters, data, tags }

def encode (item : Item) : Json :=
  .ofOptions [
    ("label", some (.str item.label)),
    ("labelDetails", item.labelDetails.map (·.encode)),
    ("kind", item.kind.map .int),
    ("detail", item.detail.map .str),
    ("documentation", item.documentation.map (·.encode)),
    ("deprecated", item.deprecated.map .bool),
    ("preselect", item.preselect.map .bool),
    ("sortText", item.sortText.map .str),
    ("filterText", item.filterText.map .str),
    ("insertText", item.insertText.map .str),
    ("insertTextFormat", item.insertTextFormat.map .int),
    ("insertTextMode", item.insertTextMode.map .int),
    ("textEdit", item.textEdit.map (·.encode)),
    ("additionalTextEdits", item.additionalTextEdits.map fun es => .arr (es.map (·.encode))),
    ("command", item.command.map (·.encode)),
    ("commitCharacters", item.commitCharacters.map fun cs => .arr (cs.map .str)),
    ("data", item.data),
    ("tags", item.tags.map fun ts => .arr (ts.map .int))]

end Item

namespace ResponseError

def members : List (String × Decoder Unit) :=
  [("code", Decoder.int64.check), ("message", Decoder.string.check)]

def decode : Decoder ResponseError := fun v => do
  let fs ← Decoder.record "ResponseError" members v
  let code ← fs.expected "code" Decoder.int64
  let message ← fs.expected "message" Decoder.string
  return ⟨← Fields.present "code" code, ← Fields.present "message" message⟩

end ResponseError
end Autocomplete

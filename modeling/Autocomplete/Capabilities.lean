import Autocomplete.Json

/-!
The capabilities that an editor announces to its servers so that they send what a session can use.
-/
namespace Autocomplete

/-- The fields of an item that may be left out of a list and asked for later. -/
def resolveProperties : List String := ["additionalTextEdits"]

/-- The defaults that a list may hold for its items. -/
def itemDefaultNames : List String :=
  ["commitCharacters", "editRange", "insertTextFormat", "insertTextMode", "data"]

def clientCapabilities : Json :=
  let texts (names : List String) := Json.arr (names.map .str)
  let formats := texts ["markdown", "plaintext"]
  let item := Json.ofFields [
    ("snippetSupport", .bool true), ("commitCharactersSupport", .bool false),
    ("deprecatedSupport", .bool true), ("preselectSupport", .bool false),
    ("insertReplaceSupport", .bool true), ("labelDetailsSupport", .bool false),
    ("documentationFormat", formats),
    ("resolveSupport", .ofFields [("properties", texts resolveProperties)]),
    ("insertTextModeSupport", .ofFields [("valueSet", .arr [.int 1])])]
  let completion := Json.ofFields [
    ("dynamicRegistration", .bool false), ("contextSupport", .bool true),
    ("completionItem", item),
    ("completionList", .ofFields [("itemDefaults", texts itemDefaultNames)])]
  let signature := Json.ofFields [
    ("documentationFormat", formats), ("activeParameterSupport", .bool true),
    ("parameterInformation", .ofFields [("labelOffsetSupport", .bool true)])]
  let signatureHelp := Json.ofFields [
    ("dynamicRegistration", .bool false), ("contextSupport", .bool true),
    ("signatureInformation", signature)]
  .ofFields [
    ("textDocument", .ofFields [("completion", completion), ("signatureHelp", signatureHelp)]),
    ("general", .ofFields [("positionEncodings", texts ["utf-8", "utf-16", "utf-32"])])]

end Autocomplete

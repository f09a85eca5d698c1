import Autocomplete.Json
import Autocomplete.Text.Quoted

/-!
The compact text of a JSON value, without blanks.
-/
namespace Autocomplete.Json
open Text

/-- A character inside a JSON string: quotes, backslashes and controls are escaped. -/
def escapeChar (c : Char) : String :=
  if c = '"' then "\\\""
  else if c = '\\' then "\\\\"
  else if c = '\x08' then "\\b"
  else if c = '\x0c' then "\\f"
  else if c = '\n' then "\\n"
  else if c = '\r' then "\\r"
  else if c = '\t' then "\\t"
  else if c.val < 0x20 then
    "\\u" ++ String.ofList (List.replicate (4 - (hexDigits c.toNat).length) '0') ++ hexDigits c.toNat
  else c.toString

def stringText (s : String) : String := "\"" ++ String.join (s.toList.map escapeChar) ++ "\""

/-- Up to four zeros behind the point and 16 digits before it are written out. -/
def decimalForm : Decimal.Form := ⟨4, 16⟩

mutual

def text : Json → String
  | .null => "null"
  | .bool b => if b then "true" else "false"
  | .int n => toString n
  | .decimal d => d.text decimalForm
  | .str s => stringText s
  | .arr items => "[" ++ ",".intercalate (itemTexts items) ++ "]"
  | .obj fields => "\x7b" ++ ",".intercalate (fieldTexts fields) ++ "\x7d"

def itemTexts : List Json → List String
  | [] => []
  | v :: rest => text v :: itemTexts rest

def fieldTexts : List (String × Json) → List String
  | [] => []
  | (name, v) :: rest => (stringText name ++ ":" ++ text v) :: fieldTexts rest

end

end Autocomplete.Json

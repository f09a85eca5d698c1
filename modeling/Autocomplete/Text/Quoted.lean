import Autocomplete.Text.Classes

/-!
Quoted text for diagnostics. Between its quotes a text is written so that nothing in it is invisible:
the quote and the backslash follow a backslash, and controls, attaching marks and unprintable
characters are written by their code points.
-/
namespace Autocomplete.Text

/-- The hexadecimal digits of a number, in lower case. -/
def hexDigits (n : Nat) : String := String.ofList (Nat.toDigits 16 n)

/-- A character as it stands between a pair of the given quotes. -/
def quoteChar (quote c : Char) : String :=
  if c = '\x00' then "\\0"
  else if c = '\t' then "\\t"
  else if c = '\r' then "\\r"
  else if c = '\n' then "\\n"
  else if c = '\\' || c = quote then String.ofList ['\\', c]
  else if isExtending c || !isPrintable c then "\\u\x7b" ++ hexDigits c.toNat ++ "\x7d"
  else c.toString

/-- A character in single quotes. -/
def quotedChar (c : Char) : String := "'" ++ quoteChar '\'' c ++ "'"

/-- A text in double quotes. -/
def quoted (s : String) : String :=
  "\"" ++ String.join (s.toList.map (quoteChar '"')) ++ "\""

/-- A list in brackets. -/
def bracketed (items : List String) : String := "[" ++ ", ".intercalate items ++ "]"

end Autocomplete.Text

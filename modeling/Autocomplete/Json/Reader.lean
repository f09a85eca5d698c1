import Autocomplete.Json.Number
import Autocomplete.Text.Classes

/-!
Reading JSON texts. A reader takes the characters that are left and yields a value with those left
after it, or nothing if the text is no JSON. Readers that nest or repeat are bounded by the number of
characters.
-/
namespace Autocomplete.Json

def skipSpace (cs : List Char) : List Char :=
  cs.dropWhile fun c => c == ' ' || c == '\t' || c == '\n' || c == '\r'

/-- A code unit of four hexadecimal digits. -/
def codeUnit? : List Char → Option (Nat × List Char)
  | a :: b :: c :: d :: rest => do
    let a ← Text.hexValue? a
    let b ← Text.hexValue? b
    let c ← Text.hexValue? c
    let d ← Text.hexValue? d
    some (((a * 16 + b) * 16 + c) * 16 + d, rest)
  | _ => none

/-- A character by its code units; one beyond 16 bits has two, and neither half stands alone. -/
def unicodeEscape? (cs : List Char) : Option (Char × List Char) := do
  let (high, rest) ← codeUnit? cs
  if high < 0xD800 || 0xDFFF < high then some (Char.ofNat high, rest)
  else if 0xDC00 ≤ high then none
  else match rest with
    | '\\' :: 'u' :: rest =>
      let (low, rest) ← codeUnit? rest
      if low < 0xDC00 || 0xDFFF < low then none
      else some (Char.ofNat (0x10000 + (high - 0xD800) * 0x400 + (low - 0xDC00)), rest)
    | _ => none

/-- What a backslash and the characters after it stand for. -/
def escape? : List Char → Option (Char × List Char)
  | 'u' :: rest => unicodeEscape? rest
  | '"' :: rest => some ('"', rest)
  | '\\' :: rest => some ('\\', rest)
  | '/' :: rest => some ('/', rest)
  | 'b' :: rest => some ('\x08', rest)
  | 'f' :: rest => some ('\x0c', rest)
  | 'n' :: rest => some ('\n', rest)
  | 'r' :: rest => some ('\r', rest)
  | 't' :: rest => some ('\t', rest)
  | _ => none

/-- The rest of a string, given the characters before it in reverse. -/
def stringRest? : Nat → List Char → List Char → Option (String × List Char)
  | 0, _, _ => none
  | fuel + 1, before, cs =>
    match cs with
    | '"' :: rest => some (String.ofList before.reverse, rest)
    | '\\' :: rest => (escape? rest).bind fun (c, rest) => stringRest? fuel (c :: before) rest
    | c :: rest => if c.val < 0x20 then none else stringRest? fuel (c :: before) rest
    | [] => none

/-- The rest of a text that begins with a word. -/
def afterWord? (word : String) (cs : List Char) : Option (List Char) :=
  if word.toList.isPrefixOf cs then some (cs.drop word.length) else none

mutual

/-- A value and the rest after it. No string in it is longer than `bound`. -/
def readValue (bound : Nat) : Nat → List Char → Option (Json × List Char)
  | 0, _ => none
  | fuel + 1, cs =>
    match cs with
    | '\x7b' :: rest =>
      match skipSpace rest with
      | '\x7d' :: rest => some (.obj [], rest)
      | rest => (readFields bound fuel [] rest).map fun (fs, rest) => (.obj fs, rest)
    | '[' :: rest =>
      match skipSpace rest with
      | ']' :: rest => some (.arr [], rest)
      | rest => (readItems bound fuel rest).map fun (vs, rest) => (.arr vs, rest)
    | '"' :: rest => (stringRest? bound [] rest).map fun (s, rest) => (.str s, rest)
    | 'n' :: _ => (afterWord? "null" cs).map (.null, ·)
    | 't' :: _ => (afterWord? "true" cs).map (.bool true, ·)
    | 'f' :: _ => (afterWord? "false" cs).map (.bool false, ·)
    | _ => (numeral? cs).bind fun (m, rest) => m.value?.map (·, rest)

/-- The rest of an array, which has at least one item. -/
def readItems (bound : Nat) : Nat → List Char → Option (List Json × List Char)
  | 0, _ => none
  | fuel + 1, cs => do
    let (v, rest) ← readValue bound fuel (skipSpace cs)
    match skipSpace rest with
    | ',' :: rest =>
      let (vs, rest) ← readItems bound fuel rest
      some (v :: vs, rest)
    | ']' :: rest => some ([v], rest)
    | _ => none

/-- The rest of an object, which has at least one field; of equal names the last counts. -/
def readFields (bound : Nat) : Nat → Fields → List Char → Option (Fields × List Char)
  | 0, _, _ => none
  | fuel + 1, before, cs => do
    match skipSpace cs with
    | '"' :: rest =>
      let (name, rest) ← stringRest? bound [] rest
      match skipSpace rest with
      | ':' :: rest =>
        let (v, rest) ← readValue bound fuel (skipSpace rest)
        let fields := before.insert name v
        match skipSpace rest with
        | ',' :: rest => readFields bound fuel fields rest
        | '\x7d' :: rest => some (fields, rest)
        | _ => none
      | _ => none
    | _ => none

end

/-- The value that a text holds, with nothing but space around it. -/
def parse? (text : String) : Option Json := do
  let cs := text.toList
  let bound := cs.length + 1
  let (v, rest) ← readValue bound bound (skipSpace cs)
  if (skipSpace rest).isEmpty then some v else none

end Autocomplete.Json

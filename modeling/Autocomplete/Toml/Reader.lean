import Autocomplete.Toml.Scalar

/-!
Reading TOML documents. A reader takes the characters that are left and yields a value with those
left after it, or nothing if the text is no TOML. Readers that nest or repeat are bounded by the
number of characters. Values nest, and keys have parts, fewer than `depthLimit` times.
-/
namespace Autocomplete.Toml

abbrev Reader (α : Type) := List Char → Option (α × List Char)

/-- The depth that nested values and the parts of a key stay below. -/
def depthLimit : Nat := 80

def skipBlanks (cs : List Char) : List Char := cs.dropWhile fun c => c == ' ' || c == '\t'

/-- Characters that may stand in comments and strings: all but the controls other than the tab. -/
def isText (c : Char) : Bool := c == '\t' || (0x20 ≤ c.val && c.val != 0x7F)

/-- The rest after a line break. -/
def afterBreak? : List Char → Option (List Char)
  | '\n' :: rest => some rest
  | '\r' :: '\n' :: rest => some rest
  | _ => none

/-- What is left after a comment, if one starts here: the line break or nothing. -/
def skipComment? : List Char → Option (List Char)
  | '#' :: rest =>
    let rest := rest.dropWhile isText
    if rest.isEmpty || (afterBreak? rest).isSome then some rest else none
  | cs => some cs

/-- The rest after the end of a line, before which there may be blanks and a comment. -/
def endLine? (cs : List Char) : Option (List Char) :=
  match skipComment? (skipBlanks cs) with
  | some [] => some []
  | some rest => afterBreak? rest
  | none => none

/-- Skips blanks, comments and line breaks. -/
def skipTrivia? : Nat → List Char → Option (List Char)
  | 0, cs => some cs
  | fuel + 1, cs =>
    match skipBlanks cs with
    | '#' :: rest => (skipComment? ('#' :: rest)).bind (skipTrivia? fuel)
    | rest =>
      match afterBreak? rest with
      | some rest => skipTrivia? fuel rest
      | none => some rest

/-- The character that stands for itself or for another one after a backslash. -/
def simpleEscape? : Char → Option Char
  | 'b' => some '\x08'
  | 't' => some '\t'
  | 'n' => some '\n'
  | 'f' => some '\x0c'
  | 'r' => some '\r'
  | '"' => some '"'
  | '\\' => some '\\'
  | _ => none

/-- A character given by so many hexadecimal digits. -/
def codePoint? (count : Nat) (cs : List Char) : Option (Char × List Char) :=
  let digits := cs.take count
  let n := numberOf 16 digits
  if digits.length = count && digits.all isHexDigit && n.isValidChar
  then some (Char.ofNat n, cs.drop count) else none

/-- What a backslash and the characters after it stand for. -/
def escape? : Reader Char
  | 'u' :: rest => codePoint? 4 rest
  | 'U' :: rest => codePoint? 8 rest
  | c :: rest => (simpleEscape? c).map (·, rest)
  | [] => none

/-- The rest of a string in double quotes. -/
def basicString : Nat → Reader (List Char)
  | 0, _ => none
  | fuel + 1, cs =>
    match cs with
    | '"' :: rest => some ([], rest)
    | '\\' :: rest => do
      let (c, rest) ← escape? rest
      let (s, rest) ← basicString fuel rest
      some (c :: s, rest)
    | c :: rest => if isText c then (basicString fuel rest).map fun (s, r) => (c :: s, r) else none
    | [] => none

/-- The rest of a string in single quotes, in which nothing is escaped. -/
def literalString (cs : List Char) : Option (List Char × List Char) :=
  let (s, rest) := cs.span fun c => isText c && c != '\''
  match rest with
  | '\'' :: rest => some (s, rest)
  | _ => none

/-- What a backslash at the end of a line swallows: the line break with all blanks and line breaks
after it. -/
def afterContinuation? (cs : List Char) : Option (List Char) :=
  let isSpace := fun c => c == ' ' || c == '\t' || c == '\n' || c == '\r'
  match afterBreak? (skipBlanks cs) with
  | some rest =>
    let (space, rest) := rest.span isSpace
    let bare := (space.filter (· == '\r')).length
    let broken := ((space.zip (space.drop 1)).filter fun p => p == ('\r', '\n')).length
    if bare = broken then some rest else none
  | none => none

/-- The rest of a string of several lines between three quotes. One or two quotes may stand in it, and
also right before its end. Line breaks become newlines; in double quotes backslashes count. -/
def longString (quote : Char) : Nat → Reader (List Char)
  | 0, _ => none
  | fuel + 1, cs =>
    match cs with
    | [] => none
    | c :: rest =>
      if c = quote then
        let (more, rest) := rest.span (· == quote)
        let count := more.length + 1
        if count < 3 then (longString quote fuel rest).map fun (s, r) => (c :: more ++ s, r)
        else if count ≤ 5 then some (List.replicate (count - 3) quote, rest)
        else none
      else if c = '\\' && quote = '"' then
        match afterContinuation? rest with
        | some rest => longString quote fuel rest
        | none => do
          let (e, rest) ← escape? rest
          let (s, rest) ← longString quote fuel rest
          some (e :: s, rest)
      else match afterBreak? cs with
        | some rest => (longString quote fuel rest).map fun (s, r) => ('\n' :: s, r)
        | none =>
          if isText c then (longString quote fuel rest).map fun (s, r) => (c :: s, r) else none

/-- A line break right after the opening quotes of a long string does not count. -/
def skipFirstBreak (cs : List Char) : List Char := (afterBreak? cs).getD cs

/-- A string in whatever quotes. -/
def string (cs : List Char) : Option (List Char × List Char) :=
  match cs with
  | '"' :: '"' :: '"' :: rest => longString '"' (rest.length + 1) (skipFirstBreak rest)
  | '\'' :: '\'' :: '\'' :: rest => longString '\'' (rest.length + 1) (skipFirstBreak rest)
  | '"' :: rest => basicString (rest.length + 1) rest
  | '\'' :: rest => literalString rest
  | _ => none

def isBareKeyChar (c : Char) : Bool := c.isAlphanum || c == '-' || c == '_'

/-- A key without quotes, or a string of one line. -/
def simpleKey (cs : List Char) : Option (String × List Char) :=
  match cs with
  | '"' :: rest => (basicString (rest.length + 1) rest).map fun (s, r) => (String.ofList s, r)
  | '\'' :: rest => (literalString rest).map fun (s, r) => (String.ofList s, r)
  | _ =>
    let (key, rest) := cs.span isBareKeyChar
    if key.isEmpty then none else some (String.ofList key, rest)

/-- Keys with points between them, so many at most, and the blanks after them. -/
def dottedKey : Nat → Reader (List String)
  | 0, _ => none
  | parts + 1, cs => do
    let (key, rest) ← simpleKey cs
    match skipBlanks rest with
    | '.' :: rest =>
      let (more, rest) ← dottedKey parts (skipBlanks rest)
      some (key :: more, rest)
    | rest => some ([key], rest)

/-- A key of any form. -/
def key : Reader (List String) := dottedKey (depthLimit - 1)

/-- The keys before the last one, and the last. -/
def splitLast (keys : List String) : Option (List String × String) :=
  keys.getLast?.map fun key => (keys.dropLast, key)

mutual

/-- A value that may nest as deep as `depth`. -/
def value (depth : Nat) : Nat → Reader Value
  | 0, _ => none
  | fuel + 1, cs =>
    match cs with
    | '[' :: rest =>
      if depth = 0 then none else (items (depth - 1) fuel rest).map fun (vs, r) => (.array vs, r)
    | '\x7b' :: rest =>
      if depth = 0 then none else
      match skipBlanks rest with
      | '\x7d' :: rest => some (.table .closed [], rest)
      | rest => (fields (depth - 1) fuel [] rest).map fun (es, r) => (.table .closed es, r)
    | '"' :: _ => (string cs).map fun (s, r) => (.string (String.ofList s), r)
    | '\'' :: _ => (string cs).map fun (s, r) => (.string (String.ofList s), r)
    | _ =>
      let (token, rest) := splitToken cs
      (scalar? token).map (·, rest)

/-- The rest of an array, whose items have commas between them and perhaps after the last. -/
def items (depth : Nat) : Nat → Reader (List Value)
  | 0, _ => none
  | fuel + 1, cs => do
    match ← skipTrivia? cs.length cs with
    | ']' :: rest => some ([], rest)
    | rest =>
      let (v, rest) ← value depth fuel rest
      match ← skipTrivia? rest.length rest with
      | ',' :: rest =>
        let (vs, rest) ← items depth fuel rest
        some (v :: vs, rest)
      | ']' :: rest => some ([v], rest)
      | _ => none

/-- The rest of a table in braces, which has at least one entry and is on one line. -/
def fields (depth : Nat) : Nat → Entries → Reader Entries
  | 0, _, _ => none
  | fuel + 1, entries, cs => do
    let (path, key, v, rest) ← assignment depth fuel (skipBlanks cs)
    let entries ← entries.put path key v
    match skipBlanks rest with
    | ',' :: rest => fields depth fuel entries rest
    | '\x7d' :: rest => some (entries, rest)
    | _ => none

/-- A key with its value. -/
def assignment (depth : Nat) : Nat → List Char → Option (List String × String × Value × List Char)
  | 0, _ => none
  | fuel + 1, cs => do
    let (keys, rest) ← key cs
    let (path, key) ← splitLast keys
    match rest with
    | '=' :: rest =>
      let (v, rest) ← value depth fuel (skipBlanks rest)
      some (path, key, v, rest)
    | _ => none

end

/-- The keys of a header in the given number of brackets, and the rest of its line. -/
def header (brackets : Nat) (cs : List Char) : Option (List String × List Char) := do
  let (keys, rest) ← key (skipBlanks cs)
  let closing := rest.take brackets
  if closing == List.replicate brackets ']' then some (keys, rest.drop brackets) else none

/-- Reads lines into a document, given the path of the header that they stand under. -/
def lines : Nat → List String → Entries → List Char → Option Entries
  | 0, _, document, cs => if cs.isEmpty then some document else none
  | fuel + 1, path, document, cs =>
    match skipBlanks cs with
    | [] => some document
    | '[' :: '[' :: rest => do
      let (keys, rest) ← header 2 rest
      let (parents, key) ← splitLast keys
      lines fuel keys (← document.within parents (Entries.openElement key)) (← endLine? rest)
    | '[' :: rest => do
      let (keys, rest) ← header 1 rest
      let (parents, key) ← splitLast keys
      lines fuel keys (← document.within parents (Entries.openTable key)) (← endLine? rest)
    | rest =>
      if rest.head? == some '#' || (afterBreak? rest).isSome then do
        lines fuel path document (← endLine? rest)
      else do
        let (dots, key, v, rest) ← assignment (depthLimit - 1) (rest.length + 1) rest
        lines fuel path (← document.within path (Entries.put dots key v)) (← endLine? rest)

/-- The entries of a document. A byte order mark in front does not count. -/
def parse? (text : String) : Option Entries :=
  let cs := match text.toList with
    | '\ufeff' :: rest => rest
    | cs => cs
  lines (cs.length + 1) [] [] cs

end Autocomplete.Toml

import Autocomplete.Pattern.Escape

/-!
Sets of characters between brackets. A set holds characters, ranges, named classes and further sets,
and may be an intersection or difference of sets. Reading one yields how deep it nests.
-/
namespace Autocomplete.Pattern

/-- How deep a list of parts nests: one part is as deep as it is, several are a part of their own. -/
def depthOf : List Nat → Nat
  | [] => 0
  | [depth] => depth
  | depths => depths.foldl max 0 + 1

/-- The classes of ASCII characters that have a name. -/
def classNames : List String :=
  ["alnum", "alpha", "ascii", "blank", "cntrl", "digit", "graph", "lower", "print", "punct", "space",
   "upper", "word", "xdigit"]

/-- A named class between colons, after its opening bracket: whether it is negated, and the rest after
its closing bracket. -/
def namedClass? (cs : List Char) : Option (Bool × List Char) :=
  let read (negated : Bool) (cs : List Char) : Option (Bool × List Char) :=
    let (name, rest) := cs.span (· != ':')
    match rest with
    | ':' :: ']' :: rest =>
      if classNames.contains (String.ofList name) then some (negated, rest) else none
    | _ => none
  match cs with
  | ':' :: '^' :: rest => read true rest
  | ':' :: rest => read false rest
  | _ => none

/-- A character or escape between brackets. -/
def bracketAtom? (m : Mode) : List Char → Option (Atom × List Char)
  | [] => none
  | '\\' :: rest => escape? m rest
  | c :: rest => some (.char c false, rest)

/-- The rest after a character, an escape or a range. A hyphen makes a range unless the set ends after it
or another hyphen follows. -/
def afterItem? (m : Mode) (cs : List Char) : Option (List Char) := do
  let (first, rest) ← bracketAtom? m cs
  match m.skip rest with
  | '-' :: more =>
    if m.ahead more = some ']' || m.ahead more = some '-' then
      if first.isAllowedInBrackets m then some ('-' :: more) else none
    else
      let (last, rest) ← bracketAtom? m (m.skip more)
      match first, last with
      | .char a _, .char b _ =>
        if a ≤ b && first.isAllowedInBrackets m && last.isAllowedInBrackets m then some rest else none
      | _, _ => none
  | rest => if first.isAllowedInBrackets m then some rest else none

/-- Where a set begins. -/
structure BracketStart where
  negated : Bool
  /-- Signs that have a meaning elsewhere in a set, but not at its start. -/
  literals : Nat
  rest : List Char

/-- Reads hyphens at the start of a set. -/
def leadingHyphens (m : Mode) : Nat → Nat → List Char → Nat × List Char
  | 0, count, cs => (count, cs)
  | fuel + 1, count, cs =>
    match cs with
    | '-' :: rest => leadingHyphens m fuel (count + 1) (m.skip rest)
    | cs => (count, cs)

/-- Reads the start of a set after its bracket: a circumflex negates it, and then hyphens or one closing
bracket stand for themselves. -/
def bracketStart (m : Mode) (cs : List Char) : BracketStart :=
  let cs := m.skip cs
  let (negated, cs) := match cs with
    | '^' :: rest => (true, m.skip rest)
    | cs => (false, cs)
  let (hyphens, cs) := leadingHyphens m cs.length 0 cs
  match hyphens, cs with
  | 0, ']' :: rest => ⟨negated, 1, m.skip rest⟩
  | _, _ => ⟨negated, hyphens, cs⟩

namespace BracketStart

/-- A negated set holds characters beyond ASCII, of which bytes are only parts. -/
def isAllowed (m : Mode) (start : BracketStart) : Bool :=
  (m.unicode || !start.negated) && (start.literals = 0 || Atom.isAllowedInBrackets m (.char '-' false))

end BracketStart

/-- The operators between sets. -/
def afterOperator? : List Char → Option (List Char)
  | '&' :: '&' :: rest => some rest
  | '-' :: '-' :: rest => some rest
  | '~' :: '~' :: rest => some rest
  | _ => none

/-- The depth of a set with an operator before it, given the depth of what stands before that. -/
def joinDepth (before : Option Nat) (depth : Nat) : Nat :=
  match before with
  | some other => max other depth + 1
  | none => depth

/-- Reads a set up to its closing bracket, given the depths of the parts before an operator and of those
after it, and yields how deep it nests. -/
def bracketBody? (m : Mode) :
    Nat → Option Nat → List Nat → List Char → Option (Nat × List Char)
  | 0, _, _, _ => none
  | fuel + 1, before, depths, cs =>
    match m.skip cs with
    | [] => none
    | ']' :: rest => some (joinDepth before (depthOf depths), rest)
    | '[' :: rest =>
      match namedClass? rest with
      | some (negated, rest) =>
        if if m.unicode then m.ignoreCase else negated then none
        else bracketBody? m fuel before (0 :: depths) rest
      | none =>
        let start := bracketStart m rest
        if start.isAllowed m then
          match bracketBody? m fuel none (List.replicate start.literals 0) start.rest with
          | some (depth, rest) => bracketBody? m fuel before ((depth + 1) :: depths) rest
          | none => none
        else none
    | c :: rest =>
      match afterOperator? (c :: rest) with
      | some rest => bracketBody? m fuel (some (joinDepth before (depthOf depths))) [] rest
      | none =>
        match afterItem? m (c :: rest) with
        | some rest => bracketBody? m fuel before (0 :: depths) rest
        | none => none

/-- Reads a set after its opening bracket. -/
def bracket? (m : Mode) (cs : List Char) : Option (Nat × List Char) :=
  let start := bracketStart m cs
  if start.isAllowed m then
    (bracketBody? m (cs.length + 1) none (List.replicate start.literals 0) start.rest).map
      fun (depth, rest) => (depth + 1, rest)
  else none

end Autocomplete.Pattern

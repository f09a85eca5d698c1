import Autocomplete.Pattern.Bracket

/-!
Patterns: regular expressions that the values of fields are compared with. Only whether a text is a
pattern matters here, so reading one keeps no more of it than the depths of its parts, which are limited,
and the names of its groups, which differ. Repetitions with a count are no part of patterns, as a
closing brace ends the field that a pattern is for.
-/
namespace Autocomplete.Pattern

/-- How deep patterns may nest. -/
def depthLimit : Nat := 250

/-- Flags as they are written: those that are switched on and off, in order. -/
structure Flags where
  /-- Each flag, with whether it is switched on. -/
  items : List (Char × Bool) := []
  /-- All flags from here on are switched off. -/
  isNegated : Bool := false
  deriving DecidableEq, Repr

namespace Flags

/-- Reads flags up to a colon or closing parenthesis; none may be given twice, and a minus sign only
before a flag. -/
def read? (f : Flags) : List Char → Option (Flags × List Char)
  | [] => none
  | c :: rest =>
    if c = ':' || c = ')' then
      if f.isNegated && !f.items.any (!·.2) then none else some (f, c :: rest)
    else if c = '-' then
      if f.isNegated then none else read? { f with isNegated := true } rest
    else if "imsUuRx".toList.contains c && !f.items.any (·.1 == c) then
      read? { f with items := f.items ++ [(c, !f.isNegated)] } rest
    else none

/-- Whether a flag is on, given whether it was. -/
def switch (f : Flags) (flag : Char) (before : Bool) : Bool :=
  match f.items.find? (·.1 == flag) with
  | some item => item.2
  | none => before

def apply (f : Flags) (m : Mode) : Mode :=
  { ignoreCase := f.switch 'i' m.ignoreCase
    unicode := f.switch 'u' m.unicode
    spaced := f.switch 'x' m.spaced }

end Flags

/-- What an opening parenthesis begins. -/
inductive Opening where
  /-- A group that is read in a mode of its own, perhaps with a name. -/
  | group (mode : Mode) (name : Option (List Char))
  /-- Flags for what follows. -/
  | flags (mode : Mode)

/-- The name of a group up to its closing angle bracket. -/
def groupName? (cs : List Char) : Option (List Char × List Char) :=
  let isInner := fun c => Text.isIdentifier c || c == '.' || c == '[' || c == ']'
  match cs.span isInner with
  | (c :: name, '>' :: rest) =>
    if Text.isLetter c || c == '_' then some (c :: name, rest) else none
  | _ => none

/-- Reads what follows an opening parenthesis. -/
def opening? (m : Mode) (cs : List Char) : Option (Opening × List Char) :=
  match m.skip cs with
  | '?' :: 'P' :: '<' :: rest => (groupName? rest).map fun (name, rest) => (.group m (some name), rest)
  | '?' :: '<' :: rest => (groupName? rest).map fun (name, rest) => (.group m (some name), rest)
  | '?' :: rest =>
    match Flags.read? {} rest with
    | some (flags, ':' :: rest) => some (.group (flags.apply m) none, rest)
    | some (flags, ')' :: rest) =>
      if flags.items.isEmpty then none else some (.flags (flags.apply m), rest)
    | _ => none
  | rest => some (.group m none, rest)

/-- A part of a pattern that was read. -/
inductive Part where
  | expression (depth : Nat)
  | flags
  deriving DecidableEq, Repr

namespace Part

def depth : Part → Nat
  | .expression depth => depth
  | .flags => 0

/-- The depth of a repeated part. There is nothing to repeat in flags. -/
def repeated? : Part → Option Part
  | .expression depth => some (.expression (depth + 1))
  | .flags => none

end Part

/-- What was read of a group: the parts of the current branch, the last one first, the depths of the
branches before it, and the names of all groups. -/
structure Progress where
  parts : List Part := []
  branches : List Nat := []
  names : List (List Char) := []

namespace Progress

/-- How deep the current branch nests. -/
def branchDepth (p : Progress) : Nat := depthOf (p.parts.map Part.depth)

/-- How deep the whole group nests. -/
def depth (p : Progress) : Nat := depthOf (p.branchDepth :: p.branches)

def add (p : Progress) (part : Part) : Progress := { p with parts := part :: p.parts }

/-- Ends a branch. -/
def nextBranch (p : Progress) : Progress :=
  { p with parts := [], branches := p.branchDepth :: p.branches }

/-- Repeats the last part, if there is one. -/
def repeatLast? (p : Progress) : Option Progress :=
  match p.parts with
  | [] => none
  | part :: others => part.repeated?.map fun part => { p with parts := part :: others }

end Progress

/-- The rest after a sign of repetition: a question mark right behind it belongs to it. -/
def afterRepetition : List Char → List Char
  | '?' :: rest => rest
  | rest => rest

/-- Reads a group up to its closing parenthesis or the end of the text. -/
def group? : Nat → Mode → Progress → List Char → Option (Progress × List Char)
  | 0, _, _, _ => none
  | fuel + 1, m, p, cs =>
    match m.skip cs with
    | [] => some (p, [])
    | ')' :: rest => some (p, ')' :: rest)
    | '|' :: rest => group? fuel m p.nextBranch rest
    | '(' :: rest =>
      match opening? m rest with
      | some (.flags mode, rest) => group? fuel mode (p.add .flags) rest
      | some (.group mode name, rest) =>
        match group? fuel mode { names := name.toList ++ p.names } rest with
        | some (inner, ')' :: rest) =>
          group? fuel m { p.add (.expression (inner.depth + 1)) with names := inner.names } rest
        | _ => none
      | none => none
    | '[' :: rest =>
      match bracket? m rest with
      | some (depth, rest) => group? fuel m (p.add (.expression depth)) rest
      | none => none
    | '?' :: rest | '*' :: rest | '+' :: rest =>
      match p.repeatLast? with
      | some p => group? fuel m p (afterRepetition rest)
      | none => none
    | '\x7b' :: _ => none
    | '^' :: rest | '$' :: rest => group? fuel m (p.add (.expression 0)) rest
    | '.' :: rest => if m.unicode then group? fuel m (p.add (.expression 0)) rest else none
    | '\\' :: rest =>
      match escape? m rest with
      | some (atom, rest) =>
        if atom.isAllowed m then group? fuel m (p.add (.expression 0)) rest else none
      | none => none
    | c :: rest =>
      if Atom.isAllowed m (.char c false) then group? fuel m (p.add (.expression 0)) rest else none

/-- Whether a text is a pattern. -/
def isPattern (text : List Char) : Bool :=
  match group? (text.length + 1) {} {} text with
  | some (p, []) => p.depth ≤ depthLimit && decide p.names.Nodup
  | _ => false

end Autocomplete.Pattern

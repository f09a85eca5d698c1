import Autocomplete.Table

/-!
TOML documents. A table remembers how it came about, because that decides whether later lines of a
document may add to it.
-/
namespace Autocomplete.Toml

/-- How a table came about. -/
inductive TableKind where
  /-- It has a header of its own. -/
  | headed
  /-- It is part of the path of another header. -/
  | implied
  /-- It is part of a dotted key. -/
  | dotted
  /-- It was written in braces, which close it. -/
  | closed
  deriving DecidableEq, Repr

/-- Floating point numbers and times are recognized but not kept. -/
inductive Value where
  | string (s : String)
  | integer (n : Int)
  | float
  | boolean (b : Bool)
  | datetime
  | array (items : List Value)
  | table (kind : TableKind) (entries : List (String × Value))
  /-- The tables that have the same header in double brackets. -/
  | tables (elements : List (List (String × Value)))
  deriving Inhabited

/-- The entries of a table. -/
abbrev Entries := List (String × Value)

namespace Entries

def find? (key : String) (entries : Entries) : Option Value := Autocomplete.Entries.find? key entries

def insert (key : String) (value : Value) (entries : Entries) : Entries :=
  Autocomplete.Entries.insert key value entries

/-- Changes the last of several tables. -/
def changeLast (f : Entries → Option Entries) (elements : List Entries) : Option (List Entries) :=
  match elements.reverse with
  | [] => none
  | last :: before => (f last).map fun changed => before.reverse ++ [changed]

/-- Gives a table the value of a dotted key. The tables on its way are made by it or by other dotted
keys; none of them may have a header or braces, and no key is given twice. -/
def put (path : List String) (key : String) (value : Value) (entries : Entries) : Option Entries :=
  match path with
  | [] => if (find? key entries).isSome then none else some (insert key value entries)
  | k :: rest =>
    match find? k entries with
    | none => (put rest key value []).map fun inner => insert k (.table .dotted inner) entries
    | some (.table .dotted inner) =>
      (put rest key value inner).map fun inner => insert k (.table .dotted inner) entries
    | some (.table .implied inner) =>
      if rest.isEmpty then none
      else (put rest key value inner).map fun inner => insert k (.table .implied inner) entries
    | some (.tables elements) =>
      if rest.isEmpty then none
      else (changeLast (put rest key value) elements).map fun all => insert k (.tables all) entries
    | some _ => none

/-- Changes the table that a path of headers leads to, which goes through the last of several tables.
Tables that are missing on its way are implied. -/
def within (path : List String) (f : Entries → Option Entries) (entries : Entries) :
    Option Entries :=
  match path with
  | [] => f entries
  | k :: rest =>
    match find? k entries with
    | none => (within rest f []).map fun inner => insert k (.table .implied inner) entries
    | some (.table .closed _) => none
    | some (.table kind inner) =>
      (within rest f inner).map fun inner => insert k (.table kind inner) entries
    | some (.tables elements) =>
      (changeLast (within rest f) elements).map fun all => insert k (.tables all) entries
    | some _ => none

/-- Opens the table of a header, which may be implied so far but has no header yet. -/
def openTable (key : String) (entries : Entries) : Option Entries :=
  match find? key entries with
  | none => some (insert key (.table .headed []) entries)
  | some (.table .implied inner) => some (insert key (.table .headed inner) entries)
  | some _ => none

/-- Opens a further table of a header in double brackets. -/
def openElement (key : String) (entries : Entries) : Option Entries :=
  match find? key entries with
  | none => some (insert key (.tables [[]]) entries)
  | some (.tables elements) => some (insert key (.tables (elements ++ [[]])) entries)
  | some _ => none

end Entries
end Autocomplete.Toml

import Autocomplete.Logging.Level
import Autocomplete.Pattern
import Autocomplete.Text.Columns
import Autocomplete.Text.Split

/-!
Filters for log records and spans. A filter is a list of rules, each with the level from which on it
lets something through. Of the rules that a record fits the most specific one decides. A rule may name
a span, which is then let through whatever the rule's level is, unless no rule at all asks for records
as unimportant as the span.
-/
namespace Autocomplete

/-- The least important level that is let through, if any is. -/
abbrev Threshold := Option Level

namespace Threshold

def admits (t : Threshold) (level : Level) : Bool := t.any fun least => least.rank ≤ level.rank

/-- The levels by number, from nothing to everything. -/
def ofNumber? (digits : List Char) : Option Threshold :=
  if digits.isEmpty || !digits.all Char.isDigit then none
  else match digits.dropWhile (· == '0') with
    | [] => some none
    | ['1'] => some (some .error)
    | ['2'] => some (some .warn)
    | ['3'] => some (some .info)
    | ['4'] => some (some .debug)
    | ['5'] => some (some .trace)
    | _ => none

/-- Reads a level's name in whatever case, or its number, which may have a plus sign. -/
def ofChars? (cs : List Char) : Option Threshold :=
  match String.ofList (cs.map Char.toLower) with
  | "off" => some none
  | "error" => some (some .error)
  | "warn" => some (some .warn)
  | "info" => some (some .info)
  | "debug" => some (some .debug)
  | "trace" => some (some .trace)
  | _ =>
    match cs with
    | '+' :: digits => ofNumber? digits
    | digits => ofNumber? digits

end Threshold

/-- What a filter sees of a record or a span: where it comes from, how important it is, and the names
of its fields. -/
structure LogSource where
  target : String
  level : Level
  /-- The name of a span; a record has none. -/
  span : Option String := none
  fields : List String
  deriving DecidableEq, Repr

/-- A field that a rule asks for, perhaps with a certain value. -/
structure FieldDemand where
  name : String
  valued : Bool
  deriving DecidableEq, Repr

namespace FieldDemand

/-- Whether digits make a number, with a decimal point among or beside them and an exponent or not. -/
def isDecimal (cs : List Char) : Bool :=
  let (whole, rest) := cs.span Char.isDigit
  let (fraction, rest) := match rest with
    | '.' :: rest => rest.span Char.isDigit
    | rest => ([], rest)
  let isExponent := fun (digits : List Char) => !digits.isEmpty && digits.all Char.isDigit
  (!whole.isEmpty || !fraction.isEmpty) &&
    match rest with
    | [] => true
    | e :: sign :: digits =>
      e.toLower == 'e' &&
        if sign == '+' || sign == '-' then isExponent digits else isExponent (sign :: digits)
    | _ => false

/-- Numbers may have a sign, and there are words for those that are not finite. -/
def isNumber (cs : List Char) : Bool :=
  let unsigned := match cs with
    | '+' :: rest => rest
    | '-' :: rest => rest
    | cs => cs
  ["inf", "infinity", "nan"].contains (String.ofList (unsigned.map Char.toLower)) ||
    isDecimal unsigned

/-- A value is a number or the pattern of a text. -/
def isValue (cs : List Char) : Bool := isNumber cs || Pattern.isPattern cs

/-- Reads a field's name, and a value between two equals signs or after one. -/
def ofChars? (cs : List Char) : Option FieldDemand :=
  if cs.isEmpty then none
  else match cs.span (· != '=') with
    | (name, _ :: value) =>
      if isValue (value.takeWhile (· != '=')) then some ⟨String.ofList name, true⟩ else none
    | (name, []) => some ⟨String.ofList name, false⟩

end FieldDemand

/-- One rule. Its target is that of all sources whose targets begin with it. -/
structure FilterRule where
  target : String := ""
  span : Option String := none
  field : Option FieldDemand := none
  threshold : Threshold
  deriving DecidableEq, Repr

namespace FilterRule

/-- The level after an equals sign; without one everything is let through. -/
def thresholdOf? (cs : List Char) : Option Threshold :=
  if cs.isEmpty then some (some .trace) else Threshold.ofChars? cs

/-- The level from a column of a piece on. -/
def thresholdFrom? (written : Text.Line) (column : Nat) : Option Threshold :=
  (Text.slice? written column (Text.byteLength written)).bind thresholdOf?

/-- Reads what stands after a span in brackets, which ends at a column. -/
def afterSpan? (written : Text.Line) (target : String) (span : Option String)
    (field : Option FieldDemand) (column : Nat) : List Char → Option FilterRule
  | [] => some ⟨target, span, field, some .trace⟩
  | '=' :: _ => (thresholdFrom? written (column + 1)).map (⟨target, span, field, ·⟩)
  | _ => none

/-- Reads a span after its opening bracket: a name, a field in braces, or both. -/
def spanned? (written : Text.Line) (target : String) (start : Nat) (cs : List Char) :
    Option FilterRule := do
  let (name, rest) := cs.span fun c => c != ']' && c != '\x7b'
  let stop := start + Text.byteLength name
  let span := String.ofList (← Text.slice? written start stop)
  match rest with
  | ']' :: rest => afterSpan? written target (some span) none (stop + 1) rest
  | '\x7b' :: rest =>
    let (demand, rest) := rest.span (· != '\x7d')
    let fieldStop := stop + 1 + Text.byteLength demand
    let field ← FieldDemand.ofChars? (← Text.slice? written (stop + 1) fieldStop)
    match rest with
    | '\x7d' :: ']' :: rest =>
      afterSpan? written target (if span.isEmpty then none else some span) (some field)
        (fieldStop + 2) rest
    | _ => none
  | _ => none

/-- Whether a target may begin with a character. -/
def beginsTarget (c : Char) : Bool := Text.isAlphanumeric c || c == '-' || c == ':' || c == '_'

/-- A rule that consists of one word: a level alone or a target. -/
def ofWord (word : List Char) : FilterRule :=
  match Threshold.ofChars? word with
  | some threshold => { threshold }
  | none => { target := String.ofList word, threshold := some .trace }

/-- Reads a rule: a level alone, or a target, a span or both, with or without a level. Blanks around a
rule count when its parts are cut out, but not when the signs between them are looked for: the columns
of these are those of the text without blanks. So blanks after a target belong to it, and blanks before
it move all cuts. -/
def ofChars? (written : Text.Line) : Option FilterRule :=
  match Text.trim written with
  | [] => none
  | '[' :: rest => spanned? written "" 1 rest
  | c :: rest =>
    if beginsTarget c then
      let (word, rest) := (c :: rest).span fun c => c != '=' && c != '['
      let stop := Text.byteLength word
      match rest with
      | [] => some (ofWord written)
      | sign :: rest => do
        let target := String.ofList (← Text.slice? written 0 stop)
        if sign = '=' then
          (thresholdFrom? written (stop + 1)).map fun threshold => { target, threshold }
        else spanned? written target (stop + 1) rest
    else none

def fitsTarget (r : FilterRule) (s : LogSource) : Bool :=
  r.target.toList.isPrefixOf s.target.toList

def fitsFields (r : FilterRule) (s : LogSource) : Bool :=
  r.field.all fun f => s.fields.contains f.name

/-- Whether a rule may decide about a source by its level. The fields of a span do not count here. -/
def decidesOn (r : FilterRule) (s : LogSource) : Bool :=
  r.span.isNone && !r.field.any (·.valued) && r.fitsTarget s && (s.span.isSome || r.fitsFields s)

/-- Whether a rule is about a span of the given name. -/
def selects (r : FilterRule) (s : LogSource) (name : String) : Bool :=
  (r.span.isSome || r.field.isSome) && r.fitsTarget s && r.span.all (· == name) && r.fitsFields s

/-- Whether one rule is more specific than another one that decides on the same source: by its longer
target, then by a field, then by a field that comes later in the order of names. -/
def outranks (r other : FilterRule) : Bool :=
  if r.target.utf8ByteSize = other.target.utf8ByteSize then
    match r.field, other.field with
    | some f, some g => g.name < f.name
    | some _, none => true
    | none, _ => false
  else other.target.utf8ByteSize < r.target.utf8ByteSize

/-- The rule for the records of a module. -/
def ofModule (target : String) (level : Level) : FilterRule := { target, threshold := some level }

end FilterRule

structure LogFilter where
  rules : List FilterRule
  deriving DecidableEq, Repr

namespace LogFilter

/-- Reads rules with commas between them; there may be nothing between two commas. -/
def parse? (text : String) : Option LogFilter :=
  let parts := (Text.splitAtEach ',' text.toList).filter (!·.isEmpty)
  (parts.mapM FilterRule.ofChars?).map LogFilter.mk

/-- Keeps the more specific of two rules; of equals the later one counts. -/
def moreSpecific (best : Option FilterRule) (r : FilterRule) : Option FilterRule :=
  match best with
  | some b => if b.outranks r then some b else some r
  | none => some r

/-- The rule that decides on a source by its level. -/
def decisive (f : LogFilter) (s : LogSource) : Option FilterRule :=
  (f.rules.filter (·.decidesOn s)).foldl moreSpecific none

def admits (f : LogFilter) (s : LogSource) : Bool :=
  (f.decisive s).any fun r => r.threshold.admits s.level

/-- Whether any rule could let through what has a level. A rule that asks for a value looks at all
spans. -/
def reaches (f : LogFilter) (level : Level) : Bool :=
  f.rules.any fun r => r.threshold.admits level || r.field.any (·.valued)

/-- Whether a record or span is let through. -/
def passes (f : LogFilter) (s : LogSource) : Bool :=
  match s.span with
  | none => f.admits s
  | some name => f.reaches s.level && (f.rules.any (·.selects s name) || f.admits s)

end LogFilter
end Autocomplete

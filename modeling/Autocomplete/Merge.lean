import Autocomplete.Binding
import Autocomplete.Boundary
import Autocomplete.Fuzzy
import Autocomplete.Match
import Autocomplete.Response

/-!
Merging the answers of all servers into one list for the popup. The answers are visited in ascending
order of their servers; the list is ordered by the sort keys of the items, and entries with equal
keys keep the order in which they were visited.
-/
namespace Autocomplete
open Text

/-- What a server sent back: a value or an error. -/
abbrev Reply := Except ResponseError Json

/-- Where the results are put in: the cursor line as it is when all answers are there. -/
structure MergeRequest where
  lineNumber : Nat
  line : Line
  cursorColumn : Nat
  naiveStart : Nat

structure Merged where
  entries : List Match := []
  startColumn : Nat := 0
  isIncomplete : Bool := false
  /-- The servers that answered with an error. -/
  errors : List (ServerId × ResponseError) := []
  /-- The matcher, which may remember what it was asked. -/
  matcher : Matcher := default
  deriving Inhabited

namespace MergeRequest

/-- The answers that are no errors, with what is known about their servers. -/
structure Answer where
  server : ServerId
  encoding : Encoding
  fuzzy : Bool
  response : Response

/-- A server that is no longer attached counts as one that announced nothing. -/
def answers (replies : ServerMap Reply) (bindings : ServerMap Binding) : List Answer :=
  replies.entries.filterMap fun (server, reply) =>
    match reply with
    | .ok value =>
      let binding := bindings.find? server
      some { server
             encoding := (binding.map (·.encoding)).getD .utf16
             fuzzy := (binding.map (·.fuzzy)).getD false
             response := .ofJson value }
    | .error _ => none

def errors (replies : ServerMap Reply) : List (ServerId × ResponseError) :=
  replies.entries.filterMap fun (server, reply) =>
    match reply with
    | .ok _ => none
    | .error e => some (server, e)

/-- The start at which the edits of one answer agree. -/
def opinion (request : MergeRequest) (answer : Answer) : Option Nat :=
  resolveStart request.lineNumber request.line answer.response.items answer.encoding

/-- The common value of a nonempty list. -/
def unanimous? : List Nat → Option Nat
  | [] => none
  | first :: rest => if rest.all (· == first) then some first else none

def startColumn (request : MergeRequest) (answers : List Answer) : Nat :=
  (unanimous? (answers.filterMap request.opinion)).getD request.naiveStart

/-- The number of characters that are replaced before the typed word. -/
def offset (request : MergeRequest) (start : Nat) : Nat :=
  if start < request.naiveStart then
    ((slice? request.line start request.naiveStart).map List.length).getD 0
  else 0

/-- What was typed of a candidate so far. -/
def typed (request : MergeRequest) (start : Nat) : Line :=
  (slice? request.line start request.cursorColumn).getD []

/-- The entries of one answer, with what the matcher is asked about them. Those of a server that filters
by itself have to fit what was typed in the meantime. -/
def candidates (request : MergeRequest) (start : Nat) (answer : Answer) :
    List (Match × Option Question) :=
  let typed := request.typed start
  answer.response.items.map fun item =>
    let entry := Match.ofPayload ⟨answer.server, item⟩ answer.fuzzy (request.offset start)
    (entry, if answer.fuzzy && !typed.isEmpty then some ⟨String.ofList typed, entry.filterKey⟩
      else none)

end MergeRequest

/-- Orders entries by their sort keys. -/
def Match.sorted (entries : List Match) : List Match :=
  entries.mergeSort fun a b => a.item.sortKey ≤ b.item.sortKey

/-- Merges the answers of one round. -/
def merge (request : MergeRequest) (replies : ServerMap Reply) (bindings : ServerMap Binding)
    (matcher : Matcher) : Merged :=
  let answers := MergeRequest.answers replies bindings
  let start := request.startColumn answers
  let sifted := matcher.sift (answers.flatMap (request.candidates start))
  { entries := Match.sorted sifted.1
    startColumn := start
    isIncomplete := answers.any (·.response.isIncomplete)
    errors := MergeRequest.errors replies
    matcher := sifted.2 }

/-- What is logged while the answers of one round are merged. -/
def mergeDiagnostics (replies : ServerMap Reply) (merged : Merged) : List LogRecord :=
  (replies.values.flatMap fun
    | .ok value => Response.diagnostics value
    | .error _ => []) ++
  [⟨.debug, Response.target, "Merged completion responses",
    [("items", .ofNat merged.entries.length), ("start_column", .ofNat merged.startColumn),
     ("is_incomplete", .bool merged.isIncomplete), ("errors", .ofNat merged.errors.length)]⟩]

end Autocomplete

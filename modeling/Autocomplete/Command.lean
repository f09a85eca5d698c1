import Autocomplete.Item
import Autocomplete.Text.Quoted

/-!
Handlers for the commands that come with accepted items, kept by name in registries. Several views of
one registry share their handlers.
-/
namespace Autocomplete

/-- What is done after a handler has run. -/
inductive FollowUp where
  | triggerCompletion | triggerSignatureHelp
  deriving DecidableEq, Repr

def FollowUp.display : FollowUp → String
  | .triggerCompletion => "TriggerCompletion"
  | .triggerSignatureHelp => "TriggerSignatureHelp"

/-- Whether a handler belongs to one server or to all. -/
inductive Scope where
  | client | global
  deriving DecidableEq, Repr

def Scope.name : Scope → String
  | .client => "client"
  | .global => "global"

/-- What a command of a server is to be followed by. -/
abbrev Reaction := Command → ServerId → Option FollowUp

/-- All commands may be followed by the same. -/
instance : Coe (Option FollowUp) Reaction := ⟨fun followUp _ _ => followUp⟩

/-- A handler leaves a note that it ran, if it has a scope, and may ask for something to follow. -/
structure Handler where
  scope : Option Scope
  react : Reaction
  deriving Inhabited

/-- What follows a command, which is the empty one if none is given. -/
def Handler.followUp (h : Handler) (command : Command := default) (server : ServerId := default) :
    Option FollowUp := h.react command server

/-- Handlers by the name of their command. -/
abbrev Registry := Table String Handler

namespace Registry

/-- The handlers of two commands that servers often attach to their items. -/
def defaults : Registry :=
  Table.ofList [("editor.action.triggerSuggest", ⟨none, fun _ _ => some .triggerCompletion⟩),
    ("editor.action.triggerParameterHints", ⟨none, fun _ _ => some .triggerSignatureHelp⟩)]

def display (r : Registry) : String :=
  "CommandRegistry \x7b commands: " ++ Text.bracketed (r.keys.map Text.quoted) ++ " \x7d"

end Registry

/-- Registries of which some are views of others: each view names its registry by number. -/
structure Registries where
  stores : List Registry := []
  views : List Nat := []
  deriving Inhabited

namespace Registries

def store? (rs : Registries) (view : Nat) : Option Registry :=
  (rs.views[view]?).bind fun i => rs.stores[i]?

/-- Adds a registry with a view of its own, whose number is returned. -/
def add (rs : Registries) (r : Registry) : Registries × Nat :=
  (⟨rs.stores ++ [r], rs.views ++ [rs.stores.length]⟩, rs.views.length)

/-- Adds a view that shares its handlers with another one. -/
def share (rs : Registries) (view : Nat) : Registries × Nat :=
  ({ rs with views := rs.views ++ [(rs.views[view]?).getD rs.stores.length] }, rs.views.length)

def modify (rs : Registries) (view : Nat) (f : Registry → Registry) : Registries :=
  match rs.views[view]? with
  | some i => { rs with stores := rs.stores.modify i f }
  | none => rs

end Registries
end Autocomplete

import Autocomplete.Response
import Autocomplete.Proofs.Item

/-! What an answer lists. Its items stand in an array, or in an object that may have defaults for them;
only an object can tell that its list is not complete. -/
namespace Autocomplete

/-- A value is a list of items, or an object with one; such an object may have defaults for the items. -/
inductive Lists : Json → List Json → Fields → Prop where
  | array (items : List Json) : Lists (.arr items) items []
  | plain {fs : Fields} {items : List Json} (hitems : fs.find? "items" = some (.arr items))
      (hnone : ∀ defaults, fs.find? "itemDefaults" ≠ some (.obj defaults)) : Lists (.obj fs) items []
  | defaulted {fs : Fields} {items : List Json} {defaults : Fields}
      (hitems : fs.find? "items" = some (.arr items))
      (hdefaults : fs.find? "itemDefaults" = some (.obj defaults)) : Lists (.obj fs) items defaults

/-- Another list in the place of the items keeps the defaults. -/
theorem Lists.insert_items {fs : Fields} {items : List Json} {defaults : Fields}
    (h : Lists (.obj fs) items defaults) (others : List Json) :
    Lists (.obj (fs.insert "items" (.arr others))) others defaults := by
  have hitems : (fs.insert "items" (.arr others)).find? "items" = some (.arr others) := by
    rw [Fields.find?_insert, if_pos rfl]
  have hdefaults : (fs.insert "items" (.arr others)).find? "itemDefaults" =
      fs.find? "itemDefaults" := Fields.find?_insert_of_ne (by decide) fs _
  cases h with
  | plain _ hnone => exact .plain hitems (hdefaults ▸ hnone)
  | defaulted _ hsome => exact .defaulted hitems (hdefaults.trans hsome)

theorem Lists.erase_defaults {fs : Fields} {items : List Json} {defaults : Fields}
    (h : Lists (.obj fs) items defaults) : Lists (.obj (Entries.erase "itemDefaults" fs)) items [] := by
  have hitems : fs.find? "items" = some (.arr items) := by
    cases h with
    | plain hitems _ => exact hitems
    | defaulted hitems _ => exact hitems
  refine .plain ?_ fun _ => ?_
  · rw [Fields.find?, Entries.find?_erase, if_neg (by decide)]
    exact hitems
  · rw [Fields.find?, Entries.find?_erase, if_pos rfl]
    exact (Option.some_ne_none _).symm

/-- What a listed value is read as: the fields of an object, of which the defaults fill the gaps, or an
array with one value for each field. -/
def ReadsWith (defaults : Fields) (item : Item) : Json → Prop
  | .obj fields => Item.Reads (RawList.applyDefaults fields defaults) item
  | .arr values => values.length = Item.members.length ∧
      Item.Reads ((Item.members.map (·.1)).zip values) item
  | _ => False

/-- The item that a value has at an index of its list. -/
def HasItem (value : Json) (index : Nat) (item : Item) : Prop :=
  ∃ items defaults v, Lists value items defaults ∧ items[index]? = some v ∧
    ReadsWith defaults item v

/-- Without defaults, a value is read as it stands. -/
theorem readsWith_nil_iff {v : Json} {item : Item} : ReadsWith [] item v ↔ Item.decode v = .ok item := by
  cases v with
  | obj fields => exact Item.decode_eq_ok_iff.symm
  | arr values => exact Item.decode_arr_eq_ok_iff.symm
  | _ => exact ⟨False.elim, fun h => by cases h⟩

namespace RawList

theorem readsWith_iff {list : RawList} {v : Json} {item : Item} :
    (Item.decode (list.complete v)).toOption = some item ↔
      ReadsWith (list.defaults.getD []) item v := by
  have htoOption {x : Except DecodeError Item} : x.toOption = some item ↔ x = .ok item := by
    cases x <;> simp [Except.toOption]
  rw [htoOption]
  cases v with
  | obj fields =>
    have hcomplete : list.complete (.obj fields) =
        .obj (applyDefaults fields (list.defaults.getD [])) := by
      cases hd : list.defaults <;> simp [complete, hd, applyDefaults]
    rw [hcomplete]
    exact Item.decode_eq_ok_iff
  | _ => exact readsWith_nil_iff.symm

theorem ofJson?_of_lists {value : Json} {items : List Json} {defaults : Fields}
    (h : Lists value items defaults) : ∃ list, ofJson? value = some list ∧ list.items = items ∧
      list.defaults.getD [] = defaults := by
  cases h with
  | array => exact ⟨_, rfl, rfl, rfl⟩
  | plain hitems hnone =>
    refine ⟨_, rfl, by simp only [hitems], ?_⟩
    dsimp only
    split
    next defaults hd => exact absurd hd (hnone defaults)
    next => rfl
  | defaulted hitems hdefaults => exact ⟨_, rfl, by simp only [hitems], by simp only [hdefaults]; rfl⟩

theorem lists_of_ofJson? {value : Json} {list : RawList} (h : ofJson? value = some list)
    (hne : list.items ≠ []) : Lists value list.items (list.defaults.getD []) := by
  cases value with
  | arr items =>
    obtain rfl := Option.some.inj h
    exact .array items
  | obj fs =>
    obtain rfl := Option.some.inj h
    dsimp only at hne ⊢
    split at hne
    next items hitems =>
      split
      next defaults hd => exact .defaulted hitems hd
      next hnone => exact .plain hitems hnone
    next => exact absurd rfl hne
  | null =>
    obtain rfl := Option.some.inj h
    exact absurd rfl hne
  | _ => cases h

/-- The items of a value are those that the list has which is read from it. -/
theorem hasItem_iff {value : Json} {index : Nat} {item : Item} :
    HasItem value index item ↔ ∃ list v, ofJson? value = some list ∧ list.items[index]? = some v ∧
      (Item.decode (list.complete v)).toOption = some item := by
  simp only [readsWith_iff]
  constructor
  · rintro ⟨_, _, v, hlists, hv, hread⟩
    obtain ⟨list, hlist, rfl, rfl⟩ := ofJson?_of_lists hlists
    exact ⟨list, v, hlist, hv, hread⟩
  · rintro ⟨list, v, hlist, hv, hread⟩
    have hne : list.items ≠ [] := by
      intro hnil
      simp [hnil] at hv
    exact ⟨_, _, v, lists_of_ofJson? hlist hne, hv, hread⟩

end RawList

namespace Response

/-- Only an object tells that its list is incomplete. -/
theorem isIncomplete_ofJson_iff {value : Json} : (ofJson value).isIncomplete = true ↔
    ∃ fs, value = .obj fs ∧ Fields.find? "isIncomplete" fs = some (.bool true) := by
  cases value with
  | obj fs =>
    change ((Fields.find? "isIncomplete" fs).bind Json.bool?).getD false = true ↔ _
    cases hi : Fields.find? "isIncomplete" fs with
    | none => simp [hi]
    | some v => cases v <;> simp [hi, Json.bool?]
  | _ => simp [ofJson, RawList.ofJson?, Response.ofList]

end Response
end Autocomplete

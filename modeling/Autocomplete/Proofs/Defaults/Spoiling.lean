import Autocomplete.Proofs.Defaults
import Autocomplete.Proofs.Response

/-! Which items a list loses by its defaults. An item that can be read on its own is lost exactly if one
of its gaps is filled with a value that its field may not have; the others keep their labels and their
order. -/
namespace Autocomplete

/-- A field holds a range. -/
def Fields.HoldsRange (fs : Fields) (name : String) : Prop :=
  ∃ v, fs.find? name = some v ∧ Range.Written v

theorem Fields.exists_holds_iff {fs : Fields} {name : String} :
    (∃ r, fs.Holds name Range.decode r) ↔ fs.HoldsRange name := by
  simp only [HoldsRange, ← Range.exists_decode_iff, Holds]
  exact ⟨fun ⟨r, v, hv, hr⟩ => ⟨v, hv, r, hr⟩, fun ⟨v, hv, r, hr⟩ => ⟨r, v, hv, hr⟩⟩

namespace ItemEdit

theorem exists_decode_iff {fs : Fields} {text : String}
    (ht : fs.Holds "newText" Decoder.string text) : (∃ e, decode (.obj fs) = .ok e) ↔
      fs.HoldsRange "range" ∨ fs.HoldsRange "insert" ∧ fs.HoldsRange "replace" := by
  simp only [decode_eq_ok_iff ht, ← Fields.exists_holds_iff]
  constructor
  · rintro ⟨e, ⟨range, hr, -⟩ | ⟨-, inserted, replaced, hi, hr, -⟩⟩
    · exact .inl ⟨range, hr⟩
    · exact .inr ⟨⟨inserted, hi⟩, replaced, hr⟩
  · intro h
    by_cases hplain : ∃ range, fs.Holds "range" Range.decode range
    · obtain ⟨range, hr⟩ := hplain
      exact ⟨_, .inl ⟨range, hr, rfl⟩⟩
    · obtain ⟨⟨inserted, hi⟩, replaced, hr⟩ := h.resolve_left hplain
      exact ⟨_, .inr ⟨hplain, inserted, replaced, hi, hr, rfl⟩⟩

end ItemEdit

namespace RawList

/-- A default range that is one, or an object with one for insertion and one for replacement. -/
def RangeFits (range : Json) : Prop :=
  (rangeFields range).HoldsRange "range" ∨
    (rangeFields range).HoldsRange "insert" ∧ (rangeFields range).HoldsRange "replace"

/-- A default that has a value which its field may have. -/
def Fits (d : String × Json) : Prop :=
  if d.1 = "editRange" then RangeFits d.2
  else ∀ f ∈ Item.optionalFields, f.1 = d.1 → f.2 d.2 = true

/-- A default that fills a gap of an item with a value which no item may have there. -/
def Spoils (defaults : Fields) (v : Json) : Prop :=
  ∃ item k d, v = .obj item ∧ Fields.find? k item = none ∧ defaultFor defaults k = some d ∧ ¬ Fits d

/-- A default range spoils the items that have no edit of their own, unless its edit can be read. -/
theorem spoils_editRange_iff {range : Json} {item : Fields} :
    Spoils [("editRange", range)] (.obj item) ↔
      Fields.find? "textEdit" item = none ∧ ¬ RangeFits range := by
  have hfits : Fits ("editRange", range) ↔ RangeFits range := by rw [Fits, if_pos rfl]
  rw [← hfits]
  constructor
  · rintro ⟨_, k, d, hv, hgap, hd, hunfit⟩
    cases hv
    rw [defaultFor_cons] at hd
    split at hd
    next hk =>
      obtain rfl := Option.some.inj hd
      obtain rfl : "textEdit" = k := hk
      exact ⟨hgap, hunfit⟩
    next => cases hd
  · rintro ⟨hgap, hunfit⟩
    exact ⟨item, "textEdit", _, rfl, hgap, rfl, hunfit⟩

example : ¬ Spoils [("editRange", .arr [.arr [.int 0, .int 0], .arr [.int 0, .int 2]])]
    (.obj [("label", .str "a")]) :=
  fun h => (spoils_editRange_iff.mp h).2 (.inl ⟨_, rfl, _, _, .array _ _,
    ⟨_, _, .array _ _, ⟨0, by decide, rfl⟩, 0, by decide, rfl⟩,
    ⟨_, _, .array _ _, ⟨0, by decide, rfl⟩, 2, by decide, rfl⟩⟩)

theorem accepts_defaultEdit (range : Json) (text : String) :
    ItemEdit.decode.accepts (defaultEdit range text) = true ↔ RangeFits range := by
  have htext : ((rangeFields range).insert "newText" (.str text)).Holds "newText" Decoder.string
      text := ⟨.str text, by rw [Fields.find?_insert, if_pos rfl], rfl⟩
  have hread := ItemEdit.exists_decode_iff htext
  simp only [Fields.HoldsRange, Fields.find?_insert_of_ne (show "range" ≠ "newText" by decide),
    Fields.find?_insert_of_ne (show "insert" ≠ "newText" by decide),
    Fields.find?_insert_of_ne (show "replace" ≠ "newText" by decide)] at hread
  rw [Decoder.accepts_iff, defaultEdit_eq, RangeFits]
  simp only [Fields.HoldsRange, ← hread, Decoder.nullable]
  cases ItemEdit.decode (.obj ((rangeFields range).insert "newText" (.str text))) <;>
    simp [Except.map]

/-- Whether a default fits does not depend on the item that it is offered to. -/
theorem fits_iff (item : Fields) (d : String × Json) :
    Fits d ↔ ∀ f ∈ Item.optionalFields, f.1 = target d.1 → f.2 (offer item d) = true := by
  unfold Fits target offer
  split
  next =>
    rw [← accepts_defaultEdit d.2 (defaultText item)]
    simp only [Item.optionalFields, List.forall_mem_cons]
    simp
  next => rfl

/-- An item can be read with the defaults exactly if they do not spoil it. -/
theorem exists_decode_applyDefaults_iff {item : Fields} {read : Item}
    (h : Item.decode (.obj item) = .ok read) (defaults : Fields) :
    (∃ completed, Item.decode (.obj (applyDefaults item defaults)) = .ok completed) ↔
      ¬ Spoils defaults (.obj item) := by
  obtain ⟨⟨label, v, hlabel, hv⟩, hfields⟩ := Item.exists_decode_iff.mp ⟨read, h⟩
  constructor
  · rintro ⟨completed, hc⟩ ⟨_, k, d, hfs, hgap, hd, hfits⟩
    cases hfs
    obtain ⟨-, hcompleted⟩ := Item.exists_decode_iff.mp ⟨completed, hc⟩
    obtain ⟨other, hs⟩ := supplied_cases item defaults k
    have hk : target d.1 = k := of_decide_eq_true (List.find?_some hd :)
    refine hfits ((fits_iff other d).mpr fun f hf hft => hcompleted f hf _ ?_)
    rw [find?_applyDefaults, hft, hk, hgap, Option.none_or, hs, hd, Option.map_some]
  · intro hspoils
    refine Item.exists_decode_iff.mpr ⟨⟨label, v, ?_, hv⟩, fun f hf w hw => ?_⟩
    · rw [find?_applyDefaults, hlabel, Option.some_or]
    · rw [find?_applyDefaults] at hw
      cases hgap : item.find? f.1 with
      | some u =>
        rw [hgap, Option.some_or] at hw
        exact hfields f hf w (hgap.trans hw)
      | none =>
        obtain ⟨other, hs⟩ := supplied_cases item defaults f.1
        rw [hgap, Option.none_or, hs, Option.map_eq_some_iff] at hw
        obtain ⟨d, hd, rfl⟩ := hw
        have hk : target d.1 = f.1 := of_decide_eq_true (List.find?_some hd :)
        have hfits : Fits d := by
          by_contra hn
          exact hspoils ⟨item, f.1, d, rfl, hgap, hd, hn⟩
        exact (fits_iff other d).mp hfits f hf hk.symm

/-- The defaults never change the label of an item. -/
theorem label_applyDefaults {item defaults : Fields} {read completed : Item}
    (h : Item.decode (.obj item) = .ok read)
    (hc : Item.decode (.obj (applyDefaults item defaults)) = .ok completed) :
    completed.label = read.label := by
  obtain ⟨v, hv, hread⟩ := (Item.decode_eq_ok_iff.mp h).label
  obtain ⟨w, hw, hcompleted⟩ := (Item.decode_eq_ok_iff.mp hc).label
  rw [find?_applyDefaults, hv, Option.some_or] at hw
  cases hw
  exact Except.ok.inj (hcompleted.symm.trans hread)

/-- Defaults are for objects; an item that is none, such as an array, is read without them. -/
theorem exists_fields_or_read?_eq (v : Json) : (∃ fields, v = .obj fields) ∨
    (∀ fields, v ≠ .obj fields) ∧
      ∀ defaults, read? defaults v = (Item.decode v).toOption := by
  cases v with
  | obj fields => exact .inl ⟨fields, rfl⟩
  | _ => exact .inr ⟨fun _ => Json.noConfusion, fun _ => rfl⟩

/-- What is left of an item that can be read on its own. -/
theorem read?_of_readsWith {v : Json} {item : Item} (hread : ReadsWith [] item v) (defaults : Fields) :
    (Spoils defaults v → read? defaults v = none) ∧
    (¬ Spoils defaults v →
      ∃ completed, read? defaults v = some completed ∧ completed.label = item.label) := by
  have h := readsWith_nil_iff.mp hread
  rcases exists_fields_or_read?_eq v with ⟨fields, rfl⟩ | hplain
  · have hiff := exists_decode_applyDefaults_iff h defaults
    change (_ → (Item.decode (.obj (applyDefaults fields defaults))).toOption = none) ∧ (_ →
      ∃ completed, (Item.decode (.obj (applyDefaults fields defaults))).toOption = some completed ∧ _)
    cases hc : Item.decode (.obj (applyDefaults fields defaults)) with
    | error _ =>
      refine ⟨fun _ => rfl, fun hs => ?_⟩
      obtain ⟨completed, hcompleted⟩ := hiff.mpr hs
      cases hc.symm.trans hcompleted
    | ok completed =>
      exact ⟨fun hs => absurd hs (hiff.mp ⟨completed, hc⟩),
        fun _ => ⟨completed, rfl, label_applyDefaults h hc⟩⟩
  · exact ⟨fun ⟨fields, _, _, hv, _⟩ => absurd hv (hplain.1 fields),
      fun _ => ⟨item, by rw [hplain.2, h]; rfl, rfl⟩⟩

end RawList

namespace Response
open RawList

/-- If the defaults spoil no item, each label remains in its place. -/
theorem labels_sublist {defaults : Fields} {items : List Json}
    (hspoils : ∀ v ∈ items, ∀ item, ReadsWith [] item v → ¬ Spoils defaults v) :
    ((items.filterMap (read? [])).map (·.label)).Sublist
      ((items.filterMap (read? defaults)).map (·.label)) := by
  induction items with
  | nil => exact List.Sublist.refl _
  | cons v rest ih =>
    have ih := ih fun w hw => hspoils w (List.mem_cons_of_mem _ hw)
    rw [List.filterMap_cons, List.filterMap_cons, read?_nil]
    cases h : Item.decode v with
    | error _ =>
      cases read? defaults v with
      | none => exact ih
      | some completed => exact ih.cons _
    | ok item =>
      have hread := readsWith_nil_iff.mpr h
      obtain ⟨completed, hc, hlabel⟩ :=
        (read?_of_readsWith hread defaults).2 (hspoils v List.mem_cons_self item hread)
      rw [hc]
      change (item.label :: _).Sublist (completed.label :: _)
      rw [hlabel]
      exact ih.cons_cons _

theorem items_ofJson {value : Json} {items : List Json} {defaults : Fields}
    (h : Lists value items defaults) :
    (ofJson value).items = items.filterMap (read? defaults) := by
  obtain ⟨list, hlist, rfl, rfl⟩ := ofJson?_of_lists h
  rw [ofJson, hlist, ← items_ofList]

/-- An item that can be read on its own is lost exactly if a default spoils it. The others stay in their
places and keep their labels. -/
theorem ofJson_losesSpoiled {fs : Fields} {items : List Json} {defaults : Fields}
    (h : Lists (.obj fs) items defaults) :
    (∀ before v after item, items = before ++ v :: after → ReadsWith [] item v →
      let shown (part : List Json) := (ofJson (.obj (fs.insert "items" (.arr part)))).items
      (Spoils defaults v → (ofJson (.obj fs)).items = shown before ++ shown after) ∧
      (¬ Spoils defaults v → ∃ completed : Item, completed.label = item.label ∧
        (ofJson (.obj fs)).items = shown before ++ completed :: shown after)) ∧
    ((∀ v ∈ items, ∀ item, ReadsWith [] item v → ¬ Spoils defaults v) →
      ((ofJson (.obj (Entries.erase "itemDefaults" fs))).items.map (·.label)).Sublist
        ((ofJson (.obj fs)).items.map (·.label))) := by
  refine ⟨fun before v after item hsplit hread => ?_, fun hspoils => ?_⟩
  · obtain ⟨hlost, hkept⟩ := read?_of_readsWith hread defaults
    simp only [items_ofJson (h.insert_items _)]
    rw [items_ofJson h, hsplit, List.filterMap_append]
    refine ⟨fun hs => ?_, fun hs => ?_⟩
    · rw [List.filterMap_cons_none (hlost hs)]
    · obtain ⟨completed, hc, hlabel⟩ := hkept hs
      exact ⟨completed, hlabel, by rw [List.filterMap_cons_some hc]⟩
  · rw [items_ofJson h, items_ofJson h.erase_defaults]
    exact labels_sublist hspoils

/-- Two items and a default range that is none. -/
def nullRange : Fields :=
  [("itemDefaults", .obj [("editRange", .null)]),
   ("items", .arr [.obj [("label", .str "a")], .obj [("label", .str "b")]])]

theorem not_rangeFits_null : ¬ RangeFits .null := by
  rintro (⟨v, hv, _, _, hboth, -⟩ | ⟨⟨v, hv, -⟩, -⟩) <;> cases hv
  cases hboth

theorem ofJson_losesSpoiled_nullRange :
    Lists (.obj nullRange) [.obj [("label", .str "a")], .obj [("label", .str "b")]]
        [("editRange", .null)] ∧
      ReadsWith [] { label := "a" } (.obj [("label", .str "a")]) ∧
      Spoils [("editRange", .null)] (.obj [("label", .str "a")]) ∧
      (ofJson (.obj nullRange)).items = [] := by
  have hlists : Lists (.obj nullRange) [.obj [("label", .str "a")], .obj [("label", .str "b")]]
      [("editRange", .null)] := .defaulted rfl rfl
  have hread : ReadsWith [] { label := "a" } (.obj [("label", .str "a")]) :=
    readsWith_nil_iff.mpr rfl
  have hspoils : Spoils [("editRange", .null)] (.obj [("label", .str "a")]) :=
    spoils_editRange_iff.mpr ⟨rfl, not_rangeFits_null⟩
  refine ⟨hlists, hread, hspoils, ?_⟩
  exact ((ofJson_losesSpoiled hlists).1 [] _ _ _ rfl hread).1 hspoils

end Response
end Autocomplete

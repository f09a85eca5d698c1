import Autocomplete.Match
import Autocomplete.Proofs.Defaults

/-! An item with an empty insert text beside the same item without one. On its own each puts in the same
text as the other. With the defaults of a list they differ in two ways: an empty text is what a default
range puts in, where else the label is, and a default insert text only counts if there is none. -/
namespace Autocomplete

namespace ItemEdit

/-- The edit with another text. -/
def withText (text : String) : ItemEdit → ItemEdit
  | .replace edit => .replace ⟨edit.range, text⟩
  | .insertReplace _ inserted replaced => .insertReplace text inserted replaced

@[simp] theorem newText_withText (text : String) (e : ItemEdit) :
    (e.withText text).newText = text := by
  cases e <;> rfl

@[simp] theorem withText_newText (e : ItemEdit) : e.withText e.newText = e := by
  cases e <;> rfl

theorem decode_insert_newText {fs : Fields} {text : String} {e : ItemEdit}
    (h : decode (.obj (fs.insert "newText" (.str text))) = .ok e) (other : String) :
    decode (.obj (fs.insert "newText" (.str other))) = .ok (e.withText other) ∧ e.newText = text := by
  have holds (s : String) : (fs.insert "newText" (.str s)).Holds "newText" Decoder.string s :=
    ⟨.str s, by rw [Fields.find?_insert, if_pos rfl], rfl⟩
  have hrest {α : Type} {name : String} (hname : name ≠ "newText") (d : Decoder α) (a : α) (s : String) :
      (fs.insert "newText" (.str s)).Holds name d a ↔ fs.Holds name d a := by
    rw [Fields.Holds, Fields.find?_insert_of_ne hname, Fields.Holds]
  have hrange := @hrest _ "range" (by decide) Range.decode
  have hinsert := @hrest _ "insert" (by decide) Range.decode
  have hreplace := @hrest _ "replace" (by decide) Range.decode
  rw [decode_eq_ok_iff (holds text)] at h
  rw [decode_eq_ok_iff (holds other)]
  simp only [hrange, hinsert, hreplace] at h ⊢
  rcases h with ⟨range, hr, rfl⟩ | ⟨hnone, inserted, replaced, hi, hr, rfl⟩
  · exact ⟨.inl ⟨range, hr, rfl⟩, rfl⟩
  · exact ⟨.inr ⟨hnone, inserted, replaced, hi, hr, rfl⟩, rfl⟩

end ItemEdit

namespace Item

/-- What an item puts in: its word, for each way in which it can be shown, and its replacement. -/
def texts (item : Item) : (Bool → Nat → String) × Option String :=
  (item.wordFor, item.replacementText)

theorem texts_congr {a b : Item} (hlabel : a.label = b.label) (hkind : a.kind = b.kind)
    (hformat : a.insertTextFormat = b.insertTextFormat) (hedit : a.textEdit = b.textEdit)
    (hinsert : a.textEdit = none → a.nonemptyInsertText = b.nonemptyInsertText) :
    a.texts = b.texts := by
  have hword : a.wordFor = b.wordFor := by
    funext fuzzy offset
    unfold wordFor isSnippet
    rw [← hlabel, ← hkind, ← hformat, ← hedit]
    cases he : a.textEdit with
    | some edit => rfl
    | none => rw [hinsert he]
  have hreplacement : a.replacementText = b.replacementText := by
    unfold replacementText
    rw [← hedit]
    cases he : a.textEdit with
    | some edit => rfl
    | none => exact hinsert he
  exact Prod.ext hword hreplacement

theorem replacementText_eq (item : Item) :
    item.replacementText = (item.textEdit.map (·.newText)).or item.nonemptyInsertText := by
  unfold replacementText
  cases item.textEdit <;> rfl

/-- Fields that differ in the insert text and the edit are read as items that differ there. -/
theorem Reads.update {fs gs : Fields} {item : Item} (h : Reads fs item)
    (hfind : ∀ name ≠ "insertText", name ≠ "textEdit" → gs.find? name = fs.find? name)
    {insertText : Option String} {textEdit : Option ItemEdit}
    (hinsert : gs.optional "insertText" Decoder.string = .ok insertText)
    (hedit : gs.optional "textEdit" ItemEdit.decode = .ok textEdit) :
    Reads gs { item with insertText, textEdit } := by
  have hoptional {α : Type} {name : String} (hi : name ≠ "insertText") (he : name ≠ "textEdit")
      (d : Decoder α) : gs.optional name d = fs.optional name d :=
    Fields.optional_congr (hfind name hi he) d
  constructor
  case label =>
    obtain ⟨v, hv, hlabel⟩ := h.label
    exact ⟨v, (hfind _ (by decide) (by decide)).trans hv, hlabel⟩
  case insertText => exact hinsert
  case textEdit => exact hedit
  all_goals rw [hoptional (by decide) (by decide)]
  case labelDetails => exact h.labelDetails
  case kind => exact h.kind
  case detail => exact h.detail
  case documentation => exact h.documentation
  case deprecated => exact h.deprecated
  case preselect => exact h.preselect
  case sortText => exact h.sortText
  case filterText => exact h.filterText
  case insertTextFormat => exact h.insertTextFormat
  case insertTextMode => exact h.insertTextMode
  case additionalTextEdits => exact h.additionalTextEdits
  case command => exact h.command
  case commitCharacters => exact h.commitCharacters
  case data => exact h.data
  case tags => exact h.tags

end Item

namespace RawList

theorem rangeFirst_of_ascending {defaults : Fields} (h : Entries.Ascending defaults) :
    RangeFirst defaults := by
  refine h.imp fun {a b} hab hb ha => ?_
  rw [hb] at hab
  exact absurd hab ((by decide : ∀ name ∈ textFields, ¬ name < "editRange") a.1 ha)

/-- In ascending order a default range comes before a default edit. -/
theorem defaultFor_textEdit {defaults : Fields} (h : Entries.Ascending defaults) {range : Json}
    (hr : defaults.find? "editRange" = some range) :
    defaultFor defaults "textEdit" = some ("editRange", range) := by
  induction defaults with
  | nil => cases hr
  | cons d rest ih =>
    obtain ⟨name, v⟩ := d
    obtain ⟨head, tail⟩ := List.pairwise_cons.mp h
    simp only [Fields.find?, Entries.find?] at hr
    rw [defaultFor_cons]
    split at hr
    next hname =>
      cases hr
      simp [target, hname]
    next hname =>
      have hlt : name < "editRange" := head _ (Entries.mem_of_find? hr)
      have hne : name ≠ "textEdit" := by
        rintro rfl
        exact absurd hlt (by decide)
      simp only [target, hname, hne, if_false]
      exact ih tail hr

/-- An item without an insert text. -/
def withoutInsertText (item : Fields) : Fields := Entries.erase "insertText" item

theorem find?_withoutInsertText {name : String} (h : name ≠ "insertText") (item : Fields) :
    (withoutInsertText item).find? name = item.find? name := by
  rw [Fields.find?, withoutInsertText, Entries.find?_erase, if_neg h.symm, Fields.find?]

/-- An item whose edit is a default range. -/
def Ranged (defaults item : Fields) : Prop :=
  item.find? "textEdit" = none ∧ ∃ range, defaults.find? "editRange" = some range

/-- A default range puts in the empty insert text although the item has a label. -/
def EmptyEdit (defaults item : Fields) : Prop :=
  Ranged defaults item ∧ (∀ s, item.find? "textEditText" ≠ some (.str s)) ∧
    ∃ label ≠ "", item.find? "label" = some (.str label)

theorem defaultText_withoutInsertText {item : Fields}
    (hempty : item.find? "insertText" = some (.str "")) :
    defaultText (withoutInsertText item) ≠ defaultText item ↔
      (∀ s, item.find? "textEditText" ≠ some (.str s)) ∧
        ∃ label ≠ "", item.find? "label" = some (.str label) := by
  have hgone : (withoutInsertText item).find? "insertText" = none := by
    rw [Fields.find?, withoutInsertText, Entries.find?_erase, if_pos rfl]
  have hnone {name : String} (h : (item.find? name).bind Json.str? = none) (s : String) :
      item.find? name ≠ some (.str s) := fun hs => by
    cases h.symm.trans (bind_str?_eq_some_iff.mpr hs)
  simp only [defaultText, List.findSome?, hgone, hempty,
    find?_withoutInsertText (show "textEditText" ≠ "insertText" by decide),
    find?_withoutInsertText (show "label" ≠ "insertText" by decide)]
  cases htext : (item.find? "textEditText").bind Json.str? with
  | some s => simp [bind_str?_eq_some_iff.mp htext]
  | none =>
    cases hlabel : (item.find? "label").bind Json.str? with
    | some label =>
      simpa [bind_str?_eq_some_iff.mp hlabel, Json.str?] using fun _ => hnone htext
    | none =>
      simpa [Json.str?] using fun _ label _ => hnone hlabel label

/-- A default insert text would take the place of the empty one. Behind an edit it is not seen, unless it
makes the item unfit. -/
def EmptyKept (defaults : Fields) (read : Item) : Prop :=
  (∃ s ≠ "", defaults.find? "insertText" = some (.str s) ∧ read.textEdit = none) ∨
    ∃ v, defaults.find? "insertText" = some v ∧ Decoder.string.accepts v = false

/-- An item that tells by the texts that it puts in whether its empty insert text is there. -/
def TellsEmptyText (defaults item : Fields) : Prop :=
  ∃ read, Item.decode (.obj (applyDefaults item defaults)) = .ok read ∧
    (EmptyEdit defaults item ∨ EmptyKept defaults read)

theorem tellsEmptyText_iff {defaults item : Fields} {read : Item}
    (h : Item.decode (.obj (applyDefaults item defaults)) = .ok read) :
    TellsEmptyText defaults item ↔ EmptyEdit defaults item ∨ EmptyKept defaults read := by
  constructor
  · rintro ⟨other, hother, htells⟩
    cases h.symm.trans hother
    exact htells
  · exact fun htells => ⟨read, h, htells⟩

theorem exists_optional_insertText_iff {defaults : Fields} :
    (∃ i, defaults.optional "insertText" Decoder.string = .ok i) ↔
      ¬ ∃ v, defaults.find? "insertText" = some v ∧ Decoder.string.accepts v = false := by
  rw [Fields.exists_optional_iff]
  simp

theorem optional_insertText_eq_some_iff {defaults : Fields} {s : String} :
    defaults.optional "insertText" Decoder.string = .ok (some s) ↔
      defaults.find? "insertText" = some (.str s) := by
  unfold Fields.optional
  cases defaults.find? "insertText" with
  | none => simp
  | some v => cases v <;> simp [Decoder.nullable, Decoder.string, Except.map]

/-- Another insert text changes what an item with an empty one puts in if it is not empty and no edit
hides it. -/
theorem texts_update_iff {defaults : Fields} {read : Item} {insertText : Option String}
    {textEdit : Option ItemEdit} {edited : Prop} (hempty : read.insertText = some "")
    (hinsert : defaults.optional "insertText" Decoder.string = .ok insertText)
    (hsame : ¬ edited → textEdit = read.textEdit)
    (hdiff : edited → ∃ text text', text' ≠ text ∧ read.textEdit.map (·.newText) = some text ∧
      textEdit.map (·.newText) = some text') :
    ({ read with insertText, textEdit } : Item).texts = read.texts ↔
      ¬ (edited ∨ EmptyKept defaults read) := by
  have hnone : read.nonemptyInsertText = none := by simp [Item.nonemptyInsertText, hempty]
  constructor
  · rintro heq (hedited | ⟨s, hs, hfind, hplain⟩ | hunfit)
    · obtain ⟨text, text', hne, htext, htext'⟩ := hdiff hedited
      have hreplacement := congrArg Prod.snd heq
      simp only [Item.texts, Item.replacementText_eq, htext, htext', Option.some_or] at hreplacement
      exact hne (Option.some.inj hreplacement)
    · have hedited : ¬ edited := fun h => by
        obtain ⟨_, _, -, htext, -⟩ := hdiff h
        simp [hplain] at htext
      cases hinsert.symm.trans (optional_insertText_eq_some_iff.mpr hfind)
      have hreplacement := congrArg Prod.snd heq
      simp [Item.texts, Item.replacementText_eq, hsame hedited, hplain, hempty,
        Item.nonemptyInsertText, Option.filter, hs] at hreplacement
    · exact exists_optional_insertText_iff.mp ⟨_, hinsert⟩ hunfit
  · intro h
    have hedit := hsame fun he => h (.inl he)
    refine Item.texts_congr rfl rfl rfl hedit fun hplain => ?_
    rw [hnone]
    cases insertText with
    | none => rfl
    | some s =>
      by_contra hs
      have hs : s ≠ "" := by simpa [Item.nonemptyInsertText] using hs
      exact h (.inr (.inl ⟨s, hs, optional_insertText_eq_some_iff.mp hinsert, hedit ▸ hplain⟩))

section
variable {defaults : Fields} (hdefaults : Entries.Ascending defaults) {a b : Fields}
include hdefaults

/-- Items with the same default range get the same edit but for its text. -/
theorem optional_textEdit_of_ranged (ha : Ranged defaults a) (hb : Ranged defaults b)
    {e : Option ItemEdit}
    (he : (applyDefaults a defaults).optional "textEdit" ItemEdit.decode = .ok e) :
    ∃ edit, e = some edit ∧ edit.newText = defaultText a ∧
      (applyDefaults b defaults).optional "textEdit" ItemEdit.decode =
        .ok (some (edit.withText (defaultText b))) := by
  obtain ⟨range, hr⟩ := ha.2
  have hfind {c : Fields} (hc : Ranged defaults c) :
      (applyDefaults c defaults).find? "textEdit" = some (defaultEdit range (defaultText c)) := by
    rw [find?_applyDefaults, hc.1, Option.none_or, supplied_eq (rangeFirst_of_ascending hdefaults),
      defaultFor_textEdit hdefaults hr]
    rfl
  unfold Fields.optional at he ⊢
  rw [hfind ha, defaultEdit_eq] at he
  rw [hfind hb, defaultEdit_eq]
  simp only [Decoder.nullable] at he ⊢
  cases hd : ItemEdit.decode (.obj ((rangeFields range).insert "newText" (.str (defaultText a)))) with
  | error _ =>
    rw [hd] at he
    cases he
  | ok edit =>
    rw [hd] at he
    obtain rfl := Except.ok.inj he
    obtain ⟨hother, htext⟩ := ItemEdit.decode_insert_newText hd (defaultText b)
    exact ⟨edit, rfl, htext, by rw [hother]; rfl⟩

/-- Other fields, and other edits, are the same if they were the same before. -/
theorem find?_applyDefaults_congr {k : String} (hk : a.find? k = b.find? k)
    (hedit : k = "textEdit" → ¬ Ranged defaults a) :
    (applyDefaults a defaults).find? k = (applyDefaults b defaults).find? k := by
  rw [find?_applyDefaults, find?_applyDefaults, hk]
  cases hgap : b.find? k with
  | some v => rfl
  | none =>
    have hrange := rangeFirst_of_ascending hdefaults
    rw [Option.none_or, Option.none_or, supplied_eq hrange, supplied_eq hrange]
    refine Option.map_congr fun d hd => offer_congr fun hname => ?_
    -- A default range would have been for the edit of the item.
    have htarget : target d.1 = k := of_decide_eq_true (List.find?_some hd :)
    obtain rfl : "textEdit" = k := by rw [← htarget, target, if_pos hname]
    have hmem : d ∈ defaults := List.mem_of_find?_eq_some hd
    exact absurd ⟨hk.trans hgap, d.2, Entries.find?_of_mem hdefaults (hname ▸ hmem)⟩ (hedit rfl)

theorem exists_optional_textEdit {item : Fields} {e' : Option ItemEdit}
    (he : (applyDefaults (withoutInsertText item) defaults).optional "textEdit" ItemEdit.decode =
      .ok e') :
    ∃ e, (applyDefaults item defaults).optional "textEdit" ItemEdit.decode = .ok e := by
  have htextEdit := find?_withoutInsertText (show "textEdit" ≠ "insertText" by decide) item
  by_cases hr : Ranged defaults item
  · have hr' : Ranged defaults (withoutInsertText item) := ⟨htextEdit.trans hr.1, hr.2⟩
    obtain ⟨edit, -, -, he⟩ := optional_textEdit_of_ranged hdefaults hr' hr he
    exact ⟨_, he⟩
  · have hsame := find?_applyDefaults_congr hdefaults htextEdit.symm fun _ => hr
    exact ⟨e', (Fields.optional_congr hsame _).trans he⟩

theorem optional_insertText (item : Fields) {α : Type} (d : Decoder α) :
    (applyDefaults (withoutInsertText item) defaults).optional "insertText" d =
      defaults.optional "insertText" d := by
  have hgone : (withoutInsertText item).find? "insertText" = none := by
    rw [Fields.find?, withoutInsertText, Entries.find?_erase, if_pos rfl]
  refine Fields.optional_congr ?_ d
  rw [find?_applyDefaults, hgone, Option.none_or,
    supplied_eq (rangeFirst_of_ascending hdefaults), map_defaultFor _ _ (by decide),
    if_neg (by decide)]

theorem find?_withoutInsertText_congr (item : Fields) {name : String} (hi : name ≠ "insertText")
    (he : name ≠ "textEdit") :
    (applyDefaults (withoutInsertText item) defaults).find? name =
      (applyDefaults item defaults).find? name :=
  find?_applyDefaults_congr hdefaults (find?_withoutInsertText hi item) fun h => absurd h he

variable {item : Fields} (hempty : item.find? "insertText" = some (.str ""))
include hempty

theorem optional_textEdit_withoutInsertText {e : Option ItemEdit}
    (he : (applyDefaults item defaults).optional "textEdit" ItemEdit.decode = .ok e) :
    ∃ e', (applyDefaults (withoutInsertText item) defaults).optional "textEdit" ItemEdit.decode =
        .ok e' ∧ (¬ EmptyEdit defaults item → e' = e) ∧
      (EmptyEdit defaults item → ∃ text text', text' ≠ text ∧
        e.map (·.newText) = some text ∧ e'.map (·.newText) = some text') := by
  have htextEdit := find?_withoutInsertText (show "textEdit" ≠ "insertText" by decide) item
  by_cases hr : Ranged defaults item
  · have hr' : Ranged defaults (withoutInsertText item) := ⟨htextEdit.trans hr.1, hr.2⟩
    obtain ⟨edit, rfl, htext, he'⟩ := optional_textEdit_of_ranged hdefaults hr hr' he
    refine ⟨_, he', fun hn => ?_, fun hd => ?_⟩
    · have hsame : defaultText (withoutInsertText item) = defaultText item := by
        by_contra hne
        exact hn ⟨hr, (defaultText_withoutInsertText hempty).mp hne⟩
      rw [hsame, ← htext, ItemEdit.withText_newText]
    · have hne := (defaultText_withoutInsertText hempty).mpr hd.2
      exact ⟨_, _, hne, by rw [Option.map_some, htext], by simp⟩
  · have hsame := find?_applyDefaults_congr hdefaults htextEdit.symm fun _ => hr
    exact ⟨e, (Fields.optional_congr hsame.symm _).trans he, fun _ => rfl, fun hd => absurd hd.1 hr⟩

/-- If the item can be read without its empty insert text then also with it. -/
theorem exists_decode_of_withoutInsertText {read : Item}
    (h : Item.decode (.obj (applyDefaults (withoutInsertText item) defaults)) = .ok read) :
    ∃ read, Item.decode (.obj (applyDefaults item defaults)) = .ok read := by
  have hreads := Item.decode_eq_ok_iff.mp h
  have hinsert : (applyDefaults item defaults).optional "insertText" Decoder.string =
      .ok (some "") := by
    rw [Fields.optional, find?_applyDefaults, hempty]
    rfl
  obtain ⟨e, he⟩ := exists_optional_textEdit hdefaults hreads.textEdit
  exact ⟨_, Item.decode_eq_ok_iff.mpr (hreads.update
    (fun _ hi he => (find?_withoutInsertText_congr hdefaults item hi he).symm) hinsert he)⟩

/-- The texts of an item do not tell whether it has an empty insert text exactly if the defaults do not
make a difference. -/
theorem map_texts_read?_iff :
    (read? defaults (.obj (withoutInsertText item))).map Item.texts =
      (read? defaults (.obj item)).map Item.texts ↔ ¬ TellsEmptyText defaults item := by
  change (Item.decode (.obj (applyDefaults (withoutInsertText item) defaults))).toOption.map _ =
    (Item.decode (.obj (applyDefaults item defaults))).toOption.map _ ↔ _
  cases hc : Item.decode (.obj (applyDefaults item defaults)) with
  | error _ =>
    have htells : ¬ TellsEmptyText defaults item := by
      rintro ⟨read, hread, -⟩
      cases hc.symm.trans hread
    cases hc' : Item.decode (.obj (applyDefaults (withoutInsertText item) defaults)) with
    | error _ => exact ⟨fun _ => htells, fun _ => rfl⟩
    | ok read =>
      obtain ⟨other, hother⟩ := exists_decode_of_withoutInsertText hdefaults hempty hc'
      cases hc.symm.trans hother
  | ok read =>
    have hreads := Item.decode_eq_ok_iff.mp hc
    have hinsert : read.insertText = some "" := by
      have h := hreads.insertText
      rw [Fields.optional, find?_applyDefaults, hempty] at h
      exact (Except.ok.inj h).symm
    obtain ⟨textEdit, he, hsame, hdiff⟩ :=
      optional_textEdit_withoutInsertText hdefaults hempty hreads.textEdit
    rw [tellsEmptyText_iff hc]
    cases hi : defaults.optional "insertText" Decoder.string with
    | ok insertText =>
      have hc' := Item.decode_eq_ok_iff.mpr (hreads.update
        (fun _ hi he => find?_withoutInsertText_congr hdefaults item hi he)
        ((optional_insertText hdefaults item _).trans hi) he)
      rw [hc', ← texts_update_iff hinsert hi hsame hdiff]
      exact Option.some_inj
    | error _ =>
      have hunfit : ¬ ∃ i, defaults.optional "insertText" Decoder.string = .ok i := by
        rintro ⟨i, h⟩
        cases hi.symm.trans h
      have hkept : EmptyKept defaults read :=
        .inr (not_not.mp (mt exists_optional_insertText_iff.mpr hunfit))
      cases hc' : Item.decode (.obj (applyDefaults (withoutInsertText item) defaults)) with
      | error _ => exact ⟨fun h => (Option.some_ne_none _ h.symm).elim, fun h => (h (.inr hkept)).elim⟩
      | ok other =>
        have h := (Item.decode_eq_ok_iff.mp hc').insertText
        rw [optional_insertText hdefaults] at h
        exact absurd ⟨_, h⟩ hunfit

end

end RawList

namespace Response
open RawList

/-- In every list, taking away the empty insert text of an item changes neither the words nor the
replacements of the answer, unless the item tells by its texts whether the insert text is there. -/
theorem emptyInsertText_unseen_iff {list : RawList}
    (hdefaults : Entries.Ascending (list.defaults.getD [])) {item : Fields}
    (hempty : item.find? "insertText" = some (.str "")) (before after : List Json) :
    let shown (item : Fields) :=
      (ofList { list with items := before ++ .obj item :: after }).items.map Item.texts
    shown (withoutInsertText item) = shown item ↔
      ¬ TellsEmptyText (list.defaults.getD []) item := by
  intro shown
  have hshown (fields : Fields) : shown fields =
      (before.filterMap (read? (list.defaults.getD []))).map Item.texts ++
        (((read? (list.defaults.getD []) (.obj fields)).map Item.texts).toList ++
          (after.filterMap (read? (list.defaults.getD []))).map Item.texts) := by
    simp only [shown, items_ofList, List.filterMap_append, List.map_append]
    rw [List.filterMap_cons]
    cases read? (list.defaults.getD []) (.obj fields) <;> rfl
  rw [hshown, hshown, List.append_cancel_left_eq, List.append_cancel_right_eq,
    ← map_texts_read?_iff hdefaults hempty]
  generalize (read? _ (.obj (withoutInsertText item))).map Item.texts = first
  generalize (read? _ (.obj item)).map Item.texts = second
  cases first <;> cases second <;> simp

/-- An item that is put in under its label. -/
def emptyItem : Fields := [("insertText", .str ""), ("label", .str "foo")]

/-- A list whose items replace the first two characters of a text. -/
def twoCharacters : RawList where
  defaults := some [("editRange", .obj [
    ("end", .obj [("character", .int 2), ("line", .int 0)]),
    ("start", .obj [("character", .int 0), ("line", .int 0)])])]

theorem emptyInsertText_unseen_iff_twoCharacters :
    Entries.Ascending (twoCharacters.defaults.getD []) ∧
      emptyItem.find? "insertText" = some (.str "") ∧
      (ofList { twoCharacters with items := [.obj (withoutInsertText emptyItem)] }).items.map
          Item.texts ≠
        (ofList { twoCharacters with items := [.obj emptyItem] }).items.map Item.texts := by
  have hascending : Entries.Ascending (twoCharacters.defaults.getD []) := List.pairwise_singleton ..
  have hempty : emptyItem.find? "insertText" = some (.str "") := rfl
  have htells : TellsEmptyText (twoCharacters.defaults.getD []) emptyItem := by
    refine ⟨_, rfl, .inl ⟨⟨rfl, _, rfl⟩, fun s hs => ?_, "foo", by decide, rfl⟩⟩
    cases hs
  exact ⟨hascending, hempty, fun heq =>
    (emptyInsertText_unseen_iff hascending hempty [] []).mp heq htells⟩

end Response
end Autocomplete

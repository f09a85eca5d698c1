import Autocomplete.Capabilities
import Autocomplete.Response
import Autocomplete.Proofs.Item
import Autocomplete.Proofs.Table

/-! The defaults of a list fill the gaps of its items. What an item has stays as it is, and for each gap
the first default counts that is about it. -/
namespace Autocomplete
namespace RawList

/-- Puts a value into an object that has no field of the name. -/
def fill (item : Fields) (name : String) (value : Json) : Fields :=
  if item.contains name then item else item.insert name value

theorem contains_iff {item : Fields} {name : String} :
    item.contains name = true ↔ ∃ v, item.find? name = some v := Option.isSome_iff_exists

theorem fill_of_contains {item : Fields} {name : String} (h : item.contains name = true)
    (value : Json) : fill item name value = item := if_pos h

theorem fill_of_lacks {item : Fields} {name : String} (h : item.find? name = none)
    (value : Json) : fill item name value = item.insert name value :=
  if_neg fun hc => by
    obtain ⟨v, hv⟩ := contains_iff.mp hc
    cases h.symm.trans hv

theorem find?_fill (item : Fields) (name k : String) (value : Json) :
    (fill item name value).find? k =
      (item.find? k).or (if name = k then some value else none) := by
  cases hn : item.find? name with
  | none =>
    rw [fill_of_lacks hn, Fields.find?_insert]
    split
    next hk => simp [← hk, hn]
    next => simp
  | some v =>
    rw [fill_of_contains (contains_iff.mpr ⟨v, hn⟩)]
    split
    next hk => simp [← hk, hn]
    next => simp

theorem fill_comm {j k : String} (hne : j ≠ k) (item : Fields) (v w : Json) :
    fill (fill item j v) k w = fill (fill item k w) j v := by
  have hj : (fill item k w).find? j = item.find? j := by simp [find?_fill, hne.symm]
  have hk : (fill item j v).find? k = item.find? k := by simp [find?_fill, hne]
  cases hcj : item.find? j with
  | some u =>
    rw [fill_of_contains (contains_iff.mpr ⟨u, hcj⟩),
      fill_of_contains (contains_iff.mpr ⟨u, hj.trans hcj⟩)]
  | none =>
    cases hck : item.find? k with
    | some u =>
      rw [fill_of_contains (contains_iff.mpr ⟨u, hck⟩),
        fill_of_contains (contains_iff.mpr ⟨u, hk.trans hck⟩)]
    | none =>
      rw [fill_of_lacks (hk.trans hck), fill_of_lacks (hj.trans hcj), fill_of_lacks hcj,
        fill_of_lacks hck]
      exact Entries.insert_comm hne v w hcj hck

/-- The field of an item that a default fills. -/
def target (name : String) : String := if name = "editRange" then "textEdit" else name

/-- What a default puts into an item. -/
def offer (item : Fields) (d : String × Json) : Json :=
  if d.1 = "editRange" then defaultEdit d.2 (defaultText item) else d.2

theorem applyDefault_eq_fill (item : Fields) (d : String × Json) :
    applyDefault item d.1 d.2 = fill item (target d.1) (offer item d) := by
  unfold applyDefault target offer fill
  split <;> rfl

/-- The first default that is about a field. -/
def defaultFor (defaults : Fields) (k : String) : Option (String × Json) :=
  List.find? (fun d => target d.1 = k) defaults

theorem defaultFor_cons (d : String × Json) (rest : Fields) (k : String) :
    defaultFor (d :: rest) k = if target d.1 = k then some d else defaultFor rest k := by
  simp only [defaultFor, List.find?_cons]
  by_cases h : target d.1 = k <;> simp [h]

/-- What the defaults put into a gap. -/
def supplied : Fields → Fields → String → Option Json
  | _, [], _ => none
  | item, d :: rest, k =>
    if target d.1 = k then some (offer item d) else supplied (applyDefault item d.1 d.2) rest k

theorem find?_applyDefaults (item defaults : Fields) (k : String) :
    (applyDefaults item defaults).find? k = (item.find? k).or (supplied item defaults k) := by
  induction defaults generalizing item with
  | nil => simp [applyDefaults, supplied]
  | cons d rest ih =>
    have hstep : applyDefaults item (d :: rest) = applyDefaults (applyDefault item d.1 d.2) rest :=
      rfl
    rw [hstep, ih, applyDefault_eq_fill, find?_fill, supplied, Option.or_assoc]
    split
    next => rfl
    next => rw [Option.none_or, applyDefault_eq_fill]

/-- A gap is filled by the first default that is about it. Only the text of a range may depend on what
was filled before. -/
theorem supplied_cases (item defaults : Fields) (k : String) :
    ∃ other, supplied item defaults k = (defaultFor defaults k).map (offer other) := by
  induction defaults generalizing item with
  | nil => exact ⟨item, rfl⟩
  | cons d rest ih =>
    rw [supplied, defaultFor_cons]
    split
    next => exact ⟨item, rfl⟩
    next => exact ih _

/-- The fields that may name the text of a default range. -/
def textFields : List String := ["textEditText", "insertText", "label"]

theorem defaultText_congr {item other : Fields}
    (h : ∀ name ∈ textFields, other.find? name = item.find? name) :
    defaultText other = defaultText item := by
  simp only [textFields, List.forall_mem_cons] at h
  obtain ⟨ht, hi, hl, -⟩ := h
  simp [defaultText, List.findSome?, ht, hi, hl]

theorem offer_congr {item other : Fields} {d : String × Json}
    (h : d.1 = "editRange" → ∀ name ∈ textFields, other.find? name = item.find? name) :
    offer other d = offer item d := by
  unfold offer
  split
  next hd => rw [defaultText_congr (h hd)]
  next => rfl

/-- Before a range the defaults name none of the texts that it may take. -/
def RangeFirst (defaults : Fields) : Prop :=
  defaults.Pairwise fun a b => b.1 = "editRange" → a.1 ∉ textFields

/-- A default that names no text leaves the texts as they are. -/
theorem find?_applyDefault_text {d : String × Json} (h : d.1 ∉ textFields) (item : Fields)
    {name : String} (hname : name ∈ textFields) :
    (applyDefault item d.1 d.2).find? name = item.find? name := by
  have hne : target d.1 ≠ name := by
    rintro rfl
    unfold target at hname
    split at hname
    · exact absurd hname (by decide)
    · exact h hname
  rw [applyDefault_eq_fill, find?_fill, if_neg hne, Option.or_none]

/-- Then all offers are those that are made to the item as it was sent. -/
theorem supplied_eq {defaults : Fields} (h : RangeFirst defaults) (item : Fields) (k : String) :
    supplied item defaults k = (defaultFor defaults k).map (offer item) := by
  induction defaults generalizing item with
  | nil => rfl
  | cons d rest ih =>
    obtain ⟨hd, hr⟩ := List.pairwise_cons.mp h
    rw [supplied, defaultFor_cons]
    split
    next => rfl
    next =>
      rw [ih hr]
      refine Option.map_congr fun e he => offer_congr fun hrange name hname => ?_
      have hmem : e ∈ rest := List.mem_of_find?_eq_some he
      exact find?_applyDefault_text (hd e hmem hrange) item hname

theorem applyDefault_comm {d e : String × Json} (hne : target d.1 ≠ target e.1)
    (hd : d.1 ∉ textFields) (he : e.1 ∉ textFields) (item : Fields) :
    applyDefault (applyDefault item d.1 d.2) e.1 e.2 =
      applyDefault (applyDefault item e.1 e.2) d.1 d.2 := by
  have hoffer {a b : String × Json} (ha : a.1 ∉ textFields) :
      offer (applyDefault item a.1 a.2) b = offer item b :=
    offer_congr fun _ _ hname => find?_applyDefault_text ha item hname
  calc
    applyDefault (applyDefault item d.1 d.2) e.1 e.2
      = fill (fill item (target d.1) (offer item d)) (target e.1) (offer item e) := by
        rw [applyDefault_eq_fill _ e, hoffer hd, applyDefault_eq_fill item d]
    _ = fill (fill item (target e.1) (offer item e)) (target d.1) (offer item d) :=
        fill_comm hne ..
    _ = applyDefault (applyDefault item e.1 e.2) d.1 d.2 := by
        rw [applyDefault_eq_fill _ d, hoffer he, applyDefault_eq_fill item e]

/-- After the defaults were applied there is no gap that one of them is about. -/
theorem contains_applyDefaults {defaults : Fields} {d : String × Json} (h : d ∈ defaults)
    (item : Fields) : (applyDefaults item defaults).contains (target d.1) = true := by
  obtain ⟨other, hs⟩ := supplied_cases item defaults (target d.1)
  have hf : (defaultFor defaults (target d.1)).isSome = true :=
    List.find?_isSome.mpr ⟨d, h, by simp⟩
  obtain ⟨e, he⟩ := Option.isSome_iff_exists.mp hf
  change ((applyDefaults item defaults).find? (target d.1)).isSome = true
  rw [find?_applyDefaults, hs, he]
  cases item.find? (target d.1) <;> rfl

theorem applyDefaults_of_contains {item defaults : Fields}
    (h : ∀ d ∈ defaults, item.contains (target d.1) = true) :
    applyDefaults item defaults = item := by
  induction defaults with
  | nil => rfl
  | cons d rest ih =>
    have hstep : applyDefaults item (d :: rest) = applyDefaults (applyDefault item d.1 d.2) rest :=
      rfl
    rw [hstep, applyDefault_eq_fill, fill_of_contains (h d (by simp))]
    exact ih fun e he => h e (List.mem_cons_of_mem _ he)

theorem ascending_applyDefaults {item : Fields} (h : Entries.Ascending item) (defaults : Fields) :
    Entries.Ascending (applyDefaults item defaults) := by
  induction defaults generalizing item with
  | nil => exact h
  | cons d rest ih =>
    change Entries.Ascending (applyDefaults (applyDefault item d.1 d.2) rest)
    refine ih ?_
    rw [applyDefault_eq_fill]
    unfold fill
    split
    · exact h
    · exact Entries.ascending_insert h _ _

/-- The ranges of an edit: those that a default has for inserting and replacing, or a single one. -/
def rangeFields (range : Json) : Fields :=
  match range with
  | .obj fs => if Fields.contains "insert" fs then fs else [("range", range)]
  | _ => [("range", range)]

theorem ofFields_range (range : Json) (text : String) :
    Json.ofFields [("range", range), ("newText", .str text)] =
      .obj (Fields.insert "newText" (.str text) [("range", range)]) := by
  simp [Json.ofFields, Fields.insert, Entries.insert]

theorem defaultEdit_eq (range : Json) (text : String) :
    defaultEdit range text = .obj ((rangeFields range).insert "newText" (.str text)) := by
  cases range with
  | obj fs =>
    simp only [defaultEdit, rangeFields]
    split
    · rfl
    · exact ofFields_range ..
  | _ => exact ofFields_range ..

/-- What an answer has of an item if its list has these defaults. -/
def read? (defaults : Fields) (v : Json) : Option Item :=
  (Item.decode ({ defaults := some defaults : RawList }.complete v)).toOption

theorem read?_nil (v : Json) : read? [] v = (Item.decode v).toOption := by
  cases v <;> rfl

theorem items_ofList (list : RawList) :
    (Response.ofList list).items = list.items.filterMap (read? (list.defaults.getD [])) := by
  refine List.filterMap_congr fun v _ => ?_
  cases hd : list.defaults <;> cases v <;> simp only [complete, read?, hd] <;> rfl

theorem bind_str?_eq_some_iff {v : Option Json} {s : String} :
    v.bind Json.str? = some s ↔ v = some (.str s) := by
  rcases v with _ | v
  · simp
  · cases v <;> simp [Json.str?]

/-- The text of the first of the named fields that holds one; it is empty if none does. -/
def FirstText (item : Fields) : List String → String → Prop
  | [], text => text = ""
  | name :: rest, text =>
    item.find? name = some (.str text) ∨
      (∀ s, item.find? name ≠ some (.str s)) ∧ FirstText item rest text

theorem firstText_findSome? (item : Fields) (names : List String) :
    FirstText item names
      ((names.findSome? fun name => (item.find? name).bind Json.str?).getD "") := by
  induction names with
  | nil => rfl
  | cons name rest ih =>
    rw [List.findSome?_cons]
    cases h : (item.find? name).bind Json.str? with
    | some text => exact .inl (bind_str?_eq_some_iff.mp h)
    | none =>
      refine .inr ⟨fun s hs => ?_, ih⟩
      cases h.symm.trans (bind_str?_eq_some_iff.mpr hs)

theorem firstText_defaultText (item : Fields) : FirstText item textFields (defaultText item) :=
  firstText_findSome? item textFields

/-- An edit has the two ranges of a default that has some, else the default as its range. -/
structure HasRanges (range : Json) (edit : Fields) : Prop where
  two : ∀ ranges, range = .obj ranges → Fields.contains "insert" ranges = true →
    ∀ name ≠ "newText", edit.find? name = Fields.find? name ranges
  one : (∀ ranges, range = .obj ranges → Fields.contains "insert" ranges = false) →
    ∀ name ≠ "newText", edit.find? name = if name = "range" then some range else none

theorem hasRanges_insert (range : Json) (text : Json) :
    HasRanges range ((rangeFields range).insert "newText" text) := by
  constructor
  · rintro ranges rfl hi name hname
    rw [Fields.find?_insert_of_ne hname, rangeFields, if_pos hi]
  · intro hi name hname
    have hsingle : rangeFields range = [("range", range)] := by
      unfold rangeFields
      split
      next fs => rw [if_neg (by simp [hi fs rfl])]
      next => rfl
    rw [Fields.find?_insert_of_ne hname, hsingle]
    simp [Fields.find?, Entries.find?, eq_comm]

/-- What an item has after the defaults filled its gaps. -/
structure Completes (item defaults completed : Fields) : Prop where
  kept : ∀ name v, item.find? name = some v → completed.find? name = some v
  filled : ∀ name ≠ "textEdit", item.find? name = none →
    completed.find? name = if name = "editRange" then none else defaults.find? name
  unedited : item.find? "textEdit" = none → defaults.find? "editRange" = none →
    completed.find? "textEdit" = none
  edited : item.find? "textEdit" = none → ∀ range, defaults.find? "editRange" = some range →
    ∃ (edit : Fields) (text : String), completed.find? "textEdit" = some (.obj edit) ∧
      edit.find? "newText" = some (.str text) ∧ FirstText item textFields text ∧
      HasRanges range edit

theorem map_defaultFor (item defaults : Fields) {k : String} (hk : k ≠ "textEdit") :
    (defaultFor defaults k).map (offer item) =
      if k = "editRange" then none else defaults.find? k := by
  induction defaults with
  | nil => simp [defaultFor, Fields.find?, Entries.find?]
  | cons d rest ih =>
    obtain ⟨name, v⟩ := d
    by_cases hname : name = "editRange"
    · have hne : target name ≠ k := by simpa [target, hname] using hk.symm
      rw [defaultFor_cons, if_neg hne, ih]
      split
      next => rfl
      next h =>
        have : name ≠ k := fun hn => h (hn ▸ hname)
        simp [Fields.find?, Entries.find?, this]
    · have ht : target name = name := if_neg hname
      rw [defaultFor_cons]
      by_cases hn : name = k
      · subst hn
        simp [ht, offer, hname, Fields.find?, Entries.find?]
      · simp only [ht, hn, if_false, ih, Fields.find?, Entries.find?]

theorem map_defaultFor_textEdit (item : Fields) {defaults : Fields}
    (h : ∀ d ∈ defaults, d.1 ≠ "textEdit") :
    (defaultFor defaults "textEdit").map (offer item) =
      (defaults.find? "editRange").map fun range => defaultEdit range (defaultText item) := by
  induction defaults with
  | nil => rfl
  | cons d rest ih =>
    obtain ⟨name, v⟩ := d
    have hne : name ≠ "textEdit" := h (name, v) (by simp)
    have ih := ih fun e he => h e (List.mem_cons_of_mem _ he)
    rw [defaultFor_cons]
    by_cases hname : name = "editRange"
    · simp [target, hname, offer, Fields.find?, Entries.find?]
    · simp only [target, hname, hne, if_false, ih, Fields.find?, Entries.find?]

theorem completes_applyDefaults {defaults : Fields} (hrange : RangeFirst defaults)
    (hedit : ∀ d ∈ defaults, d.1 ≠ "textEdit") (item : Fields) :
    Completes item defaults (applyDefaults item defaults) := by
  have hfind (k : String) : (applyDefaults item defaults).find? k =
      (item.find? k).or ((defaultFor defaults k).map (offer item)) := by
    rw [find?_applyDefaults, supplied_eq hrange]
  constructor
  case kept =>
    intro name v hv
    rw [hfind, hv, Option.some_or]
  case filled =>
    intro name hname hv
    rw [hfind, hv, Option.none_or, map_defaultFor item defaults hname]
  case unedited =>
    intro hv hd
    rw [hfind, hv, Option.none_or, map_defaultFor_textEdit item hedit, hd, Option.map_none]
  case edited =>
    intro hv range hd
    refine ⟨(rangeFields range).insert "newText" (.str (defaultText item)), defaultText item, ?_,
      ?_, firstText_defaultText item, hasRanges_insert range _⟩
    · rw [hfind, hv, Option.none_or, map_defaultFor_textEdit item hedit, hd, Option.map_some,
        defaultEdit_eq]
    · rw [Fields.find?_insert, if_pos rfl]

/-- The defaults that an editor announces fill different gaps. -/
theorem target_injOn {j k : String} (hj : j ∈ itemDefaultNames) (hk : k ∈ itemDefaultNames)
    (h : target j = target k) : j = k := by
  have hne {name : String} (hname : name ∈ itemDefaultNames) : name ≠ "textEdit" := by
    rintro rfl
    exact absurd hname (by decide)
  unfold target at h
  split at h <;> split at h
  next hj' hk' => exact hj'.trans hk'.symm
  next => exact absurd h.symm (hne hk)
  next => exact absurd h (hne hj)
  next => exact h

/-- Defaults only fill gaps, in any order and once: what an item has stays, each default that it lacks
is added, and a range becomes the edit of an item that has none. -/
theorem applyDefaults_fillsGaps (item defaults : Fields)
    (hnames : ∀ d ∈ defaults, d.1 ∈ itemDefaultNames) (hnodup : (defaults.map (·.1)).Nodup) :
    Completes item defaults (applyDefaults item defaults) ∧
    (∀ order : Fields, order.Perm defaults →
      applyDefaults item order = applyDefaults item defaults) ∧
    applyDefaults (applyDefaults item defaults) defaults = applyDefaults item defaults ∧
    (Entries.Ascending item → Entries.Ascending (applyDefaults item defaults)) := by
  have htext {d : String × Json} (hd : d ∈ defaults) : d.1 ∉ textFields := fun h =>
    (by decide : ∀ name ∈ itemDefaultNames, name ∉ textFields) d.1 (hnames d hd) h
  refine ⟨completes_applyDefaults ?_ ?_ item, fun order hperm => ?_,
    applyDefaults_of_contains fun d hd => contains_applyDefaults hd item,
    fun h => ascending_applyDefaults h defaults⟩
  · exact List.pairwise_of_forall_mem_list fun d hd _ _ _ => htext hd
  · rintro d hd he
    exact absurd (he ▸ hnames d hd) (by decide)
  · refine hperm.foldl_eq' (fun d hd e he acc => ?_) item
    have hd := hperm.mem_iff.mp hd
    have he := hperm.mem_iff.mp he
    by_cases hde : d = e
    · rw [hde]
    · refine (applyDefault_comm (fun h => hde ?_) (htext hd) (htext he) acc)
      exact List.inj_on_of_nodup_map hnodup hd he (target_injOn (hnames d hd) (hnames e he) h)

/-- A call with a format of its own. -/
def callItem : Fields :=
  [("insertText", .str "print()"), ("insertTextFormat", .int 1), ("label", .str "print")]

/-- Characters, two ranges and a format, in the order of a map. -/
def callDefaults : Fields :=
  [("commitCharacters", .arr [.str "."]), ("editRange", .obj [("insert", .int 0), ("replace", .int 1)]),
   ("insertTextFormat", .int 2)]

theorem applyDefaults_fillsGaps_callItem :
    (∀ d ∈ callDefaults, d.1 ∈ itemDefaultNames) ∧ (callDefaults.map (·.1)).Nodup ∧
    Completes callItem callDefaults (applyDefaults callItem callDefaults) ∧
    applyDefaults callItem callDefaults.reverse = applyDefaults callItem callDefaults ∧
    applyDefaults (applyDefaults callItem callDefaults) callDefaults =
      applyDefaults callItem callDefaults ∧
    Entries.Ascending (applyDefaults callItem callDefaults) := by
  have hnames : ∀ d ∈ callDefaults, d.1 ∈ itemDefaultNames := by decide
  have hnodup : (callDefaults.map (·.1)).Nodup := by decide
  have hitem : Entries.Ascending callItem := by
    unfold Entries.Ascending
    decide
  obtain ⟨hcompletes, horder, honce, hascending⟩ :=
    applyDefaults_fillsGaps callItem callDefaults hnames hnodup
  exact ⟨hnames, hnodup, hcompletes, horder _ (List.reverse_perm _), honce, hascending hitem⟩

end RawList
end Autocomplete

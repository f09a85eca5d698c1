import Autocomplete.Item.Json
import Autocomplete.Proofs.Table

/-! An item is read field by field. Whether it can be read at all is decided by each field alone, and so
is what it holds. An array is read like the object that has its values under the names of the fields. -/
namespace Autocomplete

/-- A computation succeeds exactly if each of its steps does. -/
theorem Except.bind_eq_ok_iff {ε α β : Type} {x : Except ε α} {f : α → Except ε β} {b : β} :
    (x >>= f) = .ok b ↔ ∃ a, x = .ok a ∧ f a = .ok b := by
  cases x <;> simp [bind, Except.bind]

/-- Whether a value can be read as one that may be missing. -/
def Decoder.accepts {α : Type} (d : Decoder α) (v : Json) : Bool := (d.nullable v).isOk

theorem Decoder.accepts_iff {α : Type} {d : Decoder α} {v : Json} :
    d.accepts v = true ↔ ∃ a, d.nullable v = .ok a := by
  unfold accepts
  cases d.nullable v <;> simp [Except.isOk, Except.toBool]

theorem Decoder.check_eq_ok_iff {α : Type} {d : Decoder α} {v : Json} :
    d.check v = .ok () ↔ ∃ a, d v = .ok a := by
  unfold check map
  cases d v <;> simp [Except.map]

namespace Fields
variable {α : Type} {fs : Fields} {name : String} {d : Decoder α}

theorem find?_insert (fs : Fields) (name k : String) (v : Json) :
    (fs.insert name v).find? k = if name = k then some v else fs.find? k :=
  Entries.find?_insert name k v fs

theorem find?_insert_of_ne {k : String} (h : k ≠ name) (fs : Fields) (v : Json) :
    (fs.insert name v).find? k = fs.find? k := by
  rw [find?_insert, if_neg h.symm]

/-- A field is there, and this is its value. -/
def Holds (fs : Fields) (name : String) (d : Decoder α) (a : α) : Prop :=
  ∃ v, fs.find? name = some v ∧ d v = .ok a

theorem holds_iff {a : α} :
    (∃ r, fs.expected name d = .ok r ∧ present name r = .ok a) ↔ fs.Holds name d a := by
  unfold expected Holds
  cases fs.find? name with
  | none => simp [present]
  | some v => cases hv : d v <;> simp [hv, present, Except.map]

theorem Holds.unique {a b : α} (h : fs.Holds name d a) (h' : fs.Holds name d b) : a = b := by
  obtain ⟨v, hv, ha⟩ := h
  obtain ⟨w, hw, hb⟩ := h'
  cases hv.symm.trans hw
  exact Except.ok.inj (ha.symm.trans hb)

theorem Holds.expected {a : α} (h : fs.Holds name d a) : fs.expected name d = .ok (some a) := by
  obtain ⟨v, hv, ha⟩ := h
  simp [Fields.expected, hv, ha, Except.map]

/-- A field that may be missing can be read exactly if its value can. -/
theorem exists_optional_iff :
    (∃ a, fs.optional name d = .ok a) ↔ ∀ v, fs.find? name = some v → d.accepts v = true := by
  unfold optional
  cases fs.find? name with
  | none => simp
  | some v => simp [Decoder.accepts_iff]

theorem check_of_holds {a : α} (h : fs.Holds name d a) {v : Json} (hv : fs.find? name = some v) :
    d.check v = .ok () := by
  obtain ⟨w, hw, ha⟩ := h
  cases hv.symm.trans hw
  exact Decoder.check_eq_ok_iff.mpr ⟨a, ha⟩

theorem check_of_optional {a : Option α} (h : fs.optional name d = .ok a) {v : Json}
    (hv : fs.find? name = some v) : d.nullable.check v = .ok () := by
  refine Decoder.check_eq_ok_iff.mpr ⟨a, ?_⟩
  rwa [optional, hv] at h

theorem optional_congr {gs : Fields} (h : fs.find? name = gs.find? name) (d : Decoder α) :
    fs.optional name d = gs.optional name d := by
  rw [optional, optional, h]

end Fields

namespace Decoder
variable {α : Type} {type : String} {members : List (String × Decoder Unit)} {vs : List Json}

theorem checkValues_eq_ok_iff :
    checkValues members vs = .ok () ↔ ∀ p ∈ members.zip vs, p.1.2 p.2 = .ok () := by
  induction members generalizing vs with
  | nil => simp [checkValues]
  | cons m rest ih =>
    cases vs with
    | nil => simp [checkValues]
    | cons v vs =>
      simp only [checkValues, Except.bind_eq_ok_iff, List.zip_cons_cons, List.forall_mem_cons, ih]
      exact ⟨fun ⟨_, hv, h⟩ => ⟨hv, h⟩, fun ⟨hv, h⟩ => ⟨(), hv, h⟩⟩

theorem record_arr_eq_ok_iff {fs : Fields} : record type members (.arr vs) = .ok fs ↔
    vs.length = members.length ∧ (members.map (·.1)).zip vs = fs ∧
      ∀ p ∈ members.zip vs, p.1.2 p.2 = .ok () := by
  rw [← checkValues_eq_ok_iff, record, Except.bind_eq_ok_iff]
  rcases Nat.lt_trichotomy vs.length members.length with h | h | h
  · simp [h, Nat.ne_of_lt h]
  · have hunit : (∃ u, checkValues members vs = .ok u) ↔ checkValues members vs = .ok () :=
      ⟨fun ⟨_, hu⟩ => hu, fun hu => ⟨(), hu⟩⟩
    simp [h, pure, Except.pure, and_comm, hunit]
  · simp [h, Nat.lt_asymm h, Nat.ne_of_gt h]

/-- An array with one value for each member is read like the object that has these values under the names
of the members; no other array is read. -/
theorem record_arr_bind_eq_ok_iff {read : Fields → Except DecodeError α}
    (hnames : (members.map (·.1)).Nodup)
    (hchecks : ∀ fs a, read fs = .ok a →
      ∀ m ∈ members, ∀ v, fs.find? m.1 = some v → m.2 v = .ok ()) {a : α} :
    (record type members (.arr vs) >>= read) = .ok a ↔ vs.length = members.length ∧
      (record type members (.obj ((members.map (·.1)).zip vs)) >>= read) = .ok a := by
  rw [Except.bind_eq_ok_iff]
  constructor
  · rintro ⟨fs, hfs, ha⟩
    obtain ⟨hlength, rfl, -⟩ := record_arr_eq_ok_iff.mp hfs
    exact ⟨hlength, ha⟩
  · rintro ⟨hlength, ha⟩
    refine ⟨_, record_arr_eq_ok_iff.mpr ⟨hlength, rfl, ?_⟩, ha⟩
    rintro ⟨m, v⟩ hp
    refine hchecks _ a ha m (List.of_mem_zip hp).1 v (Entries.find?_of_mem_of_nodup ?_ ?_)
    · rwa [List.map_fst_zip (by simp [hlength])]
    · rw [List.zip_map_left]
      exact List.mem_map_of_mem (f := Prod.map (·.1) id) hp

end Decoder

/-- A value holds two others: an object under their names, or an array that has nothing else. -/
inductive Json.HoldsBoth (first second : String) : Json → Json → Json → Prop where
  | object {fs : Fields} {x y : Json} (hx : fs.find? first = some x) (hy : fs.find? second = some y) :
      HoldsBoth first second (.obj fs) x y
  | array (x y : Json) : HoldsBoth first second (.arr [x, y]) x y

section
variable {α β γ : Type} {type first second : String} {d : Decoder α} {e : Decoder β}
  {make : α → β → γ} {c : γ}

theorem Fields.both_eq_ok_iff {fs : Fields} : fs.both first second d e make = .ok c ↔
    ∃ a b, fs.Holds first d a ∧ fs.Holds second e b ∧ make a b = c := by
  simp only [both, Except.bind_eq_ok_iff]
  constructor
  · rintro ⟨s, hs, r, hr, a, ha, b, hb, hc⟩
    exact ⟨a, b, holds_iff.mp ⟨r, hr, ha⟩, holds_iff.mp ⟨s, hs, hb⟩, Except.ok.inj hc⟩
  · rintro ⟨a, b, ha, hb, rfl⟩
    exact ⟨_, hb.expected, _, ha.expected, a, rfl, b, rfl, rfl⟩

/-- A record with two members is read from a value that holds both. -/
theorem Decoder.pair_eq_ok_iff (hne : first ≠ second) {v : Json} :
    pair type first second d e make v = .ok c ↔
      ∃ x y a b, v.HoldsBoth first second x y ∧ d x = .ok a ∧ e y = .ok b ∧ make a b = c := by
  cases v with
  | obj fs =>
    change Fields.both fs first second d e make = .ok c ↔ _
    rw [Fields.both_eq_ok_iff]
    constructor
    · rintro ⟨a, b, ⟨x, hx, ha⟩, ⟨y, hy, hb⟩, hc⟩
      exact ⟨x, y, a, b, .object hx hy, ha, hb, hc⟩
    · rintro ⟨x, y, a, b, ⟨hx, hy⟩, ha, hb, hc⟩
      exact ⟨a, b, ⟨x, hx, ha⟩, ⟨y, hy, hb⟩, hc⟩
  | arr vs =>
    have hchecks (fs : Fields) (c : γ) (hc : fs.both first second d e make = .ok c) :
        ∀ m ∈ [(first, d.check), (second, e.check)],
          ∀ v, fs.find? m.1 = some v → m.2 v = .ok () := by
      obtain ⟨a, b, ha, hb, -⟩ := Fields.both_eq_ok_iff.mp hc
      simp only [List.forall_mem_cons]
      exact ⟨fun _ => Fields.check_of_holds ha, fun _ => Fields.check_of_holds hb, by simp⟩
    have hfirst (x y : Json) : Fields.find? first [(first, x), (second, y)] = some x := by
      simp [Fields.find?, Entries.find?]
    have hsecond (x y : Json) : Fields.find? second [(first, x), (second, y)] = some y := by
      simp [Fields.find?, Entries.find?, hne]
    refine (record_arr_bind_eq_ok_iff (by simpa using hne) hchecks).trans ?_
    constructor
    · rintro ⟨hlength, hc⟩
      obtain ⟨x, y, rfl⟩ := List.length_eq_two.mp hlength
      obtain ⟨a, b, ⟨_, hx, ha⟩, ⟨_, hy, hb⟩, hc⟩ := Fields.both_eq_ok_iff.mp hc
      obtain rfl := Option.some.inj ((hfirst x y).symm.trans hx)
      obtain rfl := Option.some.inj ((hsecond x y).symm.trans hy)
      exact ⟨x, y, a, b, .array x y, ha, hb, hc⟩
    · rintro ⟨x, y, a, b, ⟨⟩, ha, hb, hc⟩
      exact ⟨rfl, Fields.both_eq_ok_iff.mpr ⟨a, b, ⟨x, hfirst x y, ha⟩, ⟨y, hsecond x y, hb⟩, hc⟩⟩
  | _ =>
    constructor
    · intro h
      cases h
    · rintro ⟨_, _, _, _, ⟨⟩, _⟩

/-- Whether a record with two members can be read depends on what is read of each. -/
theorem Decoder.exists_pair_iff (hne : first ≠ second) {v : Json} :
    (∃ c, pair type first second d e make v = .ok c) ↔
      ∃ x y, v.HoldsBoth first second x y ∧ (∃ a, d x = .ok a) ∧ ∃ b, e y = .ok b := by
  simp only [pair_eq_ok_iff hne]
  constructor
  · rintro ⟨_, x, y, a, b, hxy, ha, hb, -⟩
    exact ⟨x, y, hxy, ⟨a, ha⟩, b, hb⟩
  · rintro ⟨x, y, hxy, ⟨a, ha⟩, b, hb⟩
    exact ⟨_, x, y, a, b, hxy, ha, hb, rfl⟩

end

/-- A number of 32 bits without a sign. -/
def Json.IsNat32 (v : Json) : Prop := ∃ n : Nat, n ≤ 0xffffffff ∧ v = .int n

theorem Decoder.exists_nat32_iff {v : Json} : (∃ n, nat32 v = .ok n) ↔ v.IsNat32 := by
  unfold nat32 integer Json.IsNat32
  constructor
  · rintro ⟨n, hn⟩
    cases v with
    | int m =>
      dsimp only at hn
      split at hn
      next h => exact ⟨m.toNat, by omega, by rw [Int.toNat_of_nonneg h.1]⟩
      next => cases hn
    | _ => cases hn
  · rintro ⟨n, hn, rfl⟩
    have hbound : (0 : Int) ≤ n ∧ (n : Int) ≤ 0xffffffff := by omega
    refine ⟨n, ?_⟩
    dsimp only
    rw [if_pos hbound]
    rfl

/-- A position: two numbers. -/
def Position.Written (v : Json) : Prop :=
  ∃ line character, v.HoldsBoth "line" "character" line character ∧ line.IsNat32 ∧ character.IsNat32

/-- A range: two positions. -/
def Range.Written (v : Json) : Prop :=
  ∃ start stop, v.HoldsBoth "start" "end" start stop ∧ Position.Written start ∧ Position.Written stop

theorem Position.exists_decode_iff {v : Json} : (∃ p, decode v = .ok p) ↔ Written v := by
  rw [decode, Decoder.exists_pair_iff (by decide)]
  simp only [Decoder.exists_nat32_iff, Written]

theorem Range.exists_decode_iff {v : Json} : (∃ r, decode v = .ok r) ↔ Written v := by
  rw [decode, Decoder.exists_pair_iff (by decide)]
  simp only [Position.exists_decode_iff, Written]

namespace TextEdit

theorem decode_eq_ok_iff {fs : Fields} {e : TextEdit} : decode (.obj fs) = .ok e ↔
    fs.Holds "newText" Decoder.string e.newText ∧ fs.Holds "range" Range.decode e.range := by
  refine Fields.both_eq_ok_iff.trans ⟨?_, fun ⟨ht, hr⟩ => ⟨_, _, hr, ht, rfl⟩⟩
  rintro ⟨range, text, hr, ht, rfl⟩
  exact ⟨ht, hr⟩

end TextEdit

namespace ItemEdit

theorem decodeInsertReplace_eq_ok_iff {fs : Fields} {e : ItemEdit} :
    decodeInsertReplace (.obj fs) = .ok e ↔ ∃ text inserted replaced,
      e = .insertReplace text inserted replaced ∧ fs.Holds "newText" Decoder.string text ∧
        fs.Holds "insert" Range.decode inserted ∧ fs.Holds "replace" Range.decode replaced := by
  simp only [decodeInsertReplace, Except.bind_eq_ok_iff, Decoder.record]
  constructor
  · rintro ⟨_, hfs, i, hi, t, ht, r, hr, text, htext, inserted, hins, replaced, hrep, he⟩
    obtain rfl := Except.ok.inj hfs
    exact ⟨text, inserted, replaced, (Except.ok.inj he).symm, Fields.holds_iff.mp ⟨t, ht, htext⟩,
      Fields.holds_iff.mp ⟨i, hi, hins⟩, Fields.holds_iff.mp ⟨r, hr, hrep⟩⟩
  · rintro ⟨text, inserted, replaced, rfl, ht, hi, hr⟩
    exact ⟨fs, rfl, _, hi.expected, _, ht.expected, _, hr.expected, _, rfl, _, rfl, _, rfl, rfl⟩

/-- An edit with a text is read with its range, or else with its two ranges. -/
theorem decode_eq_ok_iff {fs : Fields} {text : String} (ht : fs.Holds "newText" Decoder.string text)
    {e : ItemEdit} : decode (.obj fs) = .ok e ↔
      (∃ range, fs.Holds "range" Range.decode range ∧ e = .replace ⟨range, text⟩) ∨
      (¬ ∃ range, fs.Holds "range" Range.decode range) ∧
        ∃ inserted replaced, fs.Holds "insert" Range.decode inserted ∧
          fs.Holds "replace" Range.decode replaced ∧ e = .insertReplace text inserted replaced := by
  have hunique {other : String} (h : fs.Holds "newText" Decoder.string other) : other = text :=
    h.unique ht
  unfold decode Decoder.either Decoder.map
  cases hplain : TextEdit.decode (.obj fs) with
  | ok plain =>
    obtain ⟨htext, hrange⟩ := TextEdit.decode_eq_ok_iff.mp hplain
    constructor
    · intro h
      obtain rfl := Except.ok.inj h
      exact .inl ⟨_, hrange, by rw [← hunique htext]⟩
    · rintro (⟨range, hr, rfl⟩ | ⟨hnone, -⟩)
      · have : plain = ⟨range, text⟩ := by
          obtain ⟨_, _⟩ := plain
          rw [TextEdit.mk.injEq]
          exact ⟨hrange.unique hr, hunique htext⟩
        rw [this]
        rfl
      · exact absurd ⟨_, hrange⟩ hnone
  | error _ =>
    have hnone : ¬ ∃ range, fs.Holds "range" Range.decode range := fun ⟨range, hrange⟩ => by
      have := TextEdit.decode_eq_ok_iff (e := ⟨range, text⟩).mpr ⟨ht, hrange⟩
      cases hplain.symm.trans this
    constructor
    · intro h
      cases htwo : decodeInsertReplace (.obj fs) with
      | error _ =>
        rw [htwo] at h
        cases h
      | ok two =>
        rw [htwo] at h
        obtain rfl := Except.ok.inj h
        obtain ⟨other, inserted, replaced, rfl, ho, hi, hr⟩ := decodeInsertReplace_eq_ok_iff.mp htwo
        exact .inr ⟨hnone, inserted, replaced, hi, hr, by rw [hunique ho]⟩
    · rintro (⟨range, hr, -⟩ | ⟨-, inserted, replaced, hi, hr, rfl⟩)
      · exact absurd ⟨range, hr⟩ hnone
      · have := decodeInsertReplace_eq_ok_iff.mpr ⟨text, inserted, replaced, rfl, ht, hi, hr⟩
        simp [this, Except.map]

end ItemEdit

namespace Item

/-- What an item holds are the values of the fields of an object. -/
structure Reads (fs : Fields) (item : Item) : Prop where
  label : fs.Holds "label" Decoder.string item.label
  labelDetails : fs.optional "labelDetails" LabelDetails.decode = .ok item.labelDetails
  kind : fs.optional "kind" Decoder.int32 = .ok item.kind
  detail : fs.optional "detail" Decoder.string = .ok item.detail
  documentation : fs.optional "documentation" Documentation.decode = .ok item.documentation
  deprecated : fs.optional "deprecated" Decoder.bool = .ok item.deprecated
  preselect : fs.optional "preselect" Decoder.bool = .ok item.preselect
  sortText : fs.optional "sortText" Decoder.string = .ok item.sortText
  filterText : fs.optional "filterText" Decoder.string = .ok item.filterText
  insertText : fs.optional "insertText" Decoder.string = .ok item.insertText
  insertTextFormat : fs.optional "insertTextFormat" Decoder.int32 = .ok item.insertTextFormat
  insertTextMode : fs.optional "insertTextMode" Decoder.int32 = .ok item.insertTextMode
  textEdit : fs.optional "textEdit" ItemEdit.decode = .ok item.textEdit
  additionalTextEdits :
    fs.optional "additionalTextEdits" (Decoder.list TextEdit.decode) = .ok item.additionalTextEdits
  command : fs.optional "command" Command.decode = .ok item.command
  commitCharacters :
    fs.optional "commitCharacters" (Decoder.list Decoder.string) = .ok item.commitCharacters
  data : fs.optional "data" Decoder.any = .ok item.data
  tags : fs.optional "tags" (Decoder.list Decoder.int32) = .ok item.tags

theorem decode_eq_ok_iff {fs : Fields} {item : Item} :
    decode (.obj fs) = .ok item ↔ Reads fs item := by
  simp only [decode, Except.bind_eq_ok_iff, Decoder.record]
  constructor
  · rintro ⟨_, hfs, edits, hedits, command, hcommand, characters, hcharacters, data, hdata,
      deprecated, hdeprecated, detail, hdetail, documentation, hdocumentation, filter, hfilter,
      insert, hinsert, format, hformat, mode, hmode, kind, hkind, l, hl, details, hdetails,
      preselect, hpreselect, sort, hsort, tags, htags, edit, hedit, label, hlabel, he⟩
    obtain rfl := Except.ok.inj hfs
    obtain rfl := Except.ok.inj he
    exact ⟨Fields.holds_iff.mp ⟨l, hl, hlabel⟩, hdetails, hkind, hdetail, hdocumentation,
      hdeprecated, hpreselect, hsort, hfilter, hinsert, hformat, hmode, hedit, hedits, hcommand,
      hcharacters, hdata, htags⟩
  · intro h
    exact ⟨fs, rfl, _, h.additionalTextEdits, _, h.command, _, h.commitCharacters, _, h.data, _,
      h.deprecated, _, h.detail, _, h.documentation, _, h.filterText, _, h.insertText, _,
      h.insertTextFormat, _, h.insertTextMode, _, h.kind, _, h.label.expected, _, h.labelDetails, _,
      h.preselect, _, h.sortText, _, h.tags, _, h.textEdit, _, rfl, rfl⟩

/-- The values from which an item was read passed the checks of their members. -/
theorem Reads.checks {fs : Fields} {item : Item} (h : Reads fs item) :
    ∀ m ∈ members, ∀ v, fs.find? m.1 = some v → m.2 v = .ok () := by
  simp only [members, List.forall_mem_cons]
  exact ⟨fun _ => Fields.check_of_holds h.label, fun _ => Fields.check_of_optional h.labelDetails,
    fun _ => Fields.check_of_optional h.kind, fun _ => Fields.check_of_optional h.detail,
    fun _ => Fields.check_of_optional h.documentation,
    fun _ => Fields.check_of_optional h.deprecated, fun _ => Fields.check_of_optional h.preselect,
    fun _ => Fields.check_of_optional h.sortText, fun _ => Fields.check_of_optional h.filterText,
    fun _ => Fields.check_of_optional h.insertText,
    fun _ => Fields.check_of_optional h.insertTextFormat,
    fun _ => Fields.check_of_optional h.insertTextMode,
    fun _ => Fields.check_of_optional h.textEdit,
    fun _ => Fields.check_of_optional h.additionalTextEdits,
    fun _ => Fields.check_of_optional h.command,
    fun _ => Fields.check_of_optional h.commitCharacters,
    fun _ => Fields.check_of_optional h.data, fun _ => Fields.check_of_optional h.tags, by simp⟩

/-- An array is an item exactly if it has one value for each member and the object of these is one. -/
theorem decode_arr_eq_ok_iff {vs : List Json} {item : Item} : decode (.arr vs) = .ok item ↔
    vs.length = members.length ∧ Reads ((members.map (·.1)).zip vs) item := by
  rw [← decode_eq_ok_iff]
  exact Decoder.record_arr_bind_eq_ok_iff (by decide) fun fs item h =>
    Reads.checks (decode_eq_ok_iff.mp h)

example : decode (.arr (.str "a" :: List.replicate 17 .null)) = .ok { label := "a" } := rfl

/-- The fields that an item need not have, and which values they may have. -/
def optionalFields : List (String × (Json → Bool)) := [
  ("labelDetails", LabelDetails.decode.accepts), ("kind", Decoder.int32.accepts),
  ("detail", Decoder.string.accepts), ("documentation", Documentation.decode.accepts),
  ("deprecated", Decoder.bool.accepts), ("preselect", Decoder.bool.accepts),
  ("sortText", Decoder.string.accepts), ("filterText", Decoder.string.accepts),
  ("insertText", Decoder.string.accepts), ("insertTextFormat", Decoder.int32.accepts),
  ("insertTextMode", Decoder.int32.accepts), ("textEdit", ItemEdit.decode.accepts),
  ("additionalTextEdits", (Decoder.list TextEdit.decode).accepts),
  ("command", Command.decode.accepts),
  ("commitCharacters", (Decoder.list Decoder.string).accepts), ("data", Decoder.any.accepts),
  ("tags", (Decoder.list Decoder.int32).accepts)]

/-- An object is an item exactly if it has a label and each field has a value that it may have. -/
theorem exists_decode_iff {fs : Fields} : (∃ item, decode (.obj fs) = .ok item) ↔
    (∃ label, fs.Holds "label" Decoder.string label) ∧
      ∀ f ∈ optionalFields, ∀ v, fs.find? f.1 = some v → f.2 v = true := by
  simp only [optionalFields, List.forall_mem_cons, ← Fields.exists_optional_iff, decode_eq_ok_iff]
  constructor
  · rintro ⟨item, h⟩
    exact ⟨⟨_, h.label⟩, ⟨_, h.labelDetails⟩, ⟨_, h.kind⟩, ⟨_, h.detail⟩, ⟨_, h.documentation⟩,
      ⟨_, h.deprecated⟩, ⟨_, h.preselect⟩, ⟨_, h.sortText⟩, ⟨_, h.filterText⟩, ⟨_, h.insertText⟩,
      ⟨_, h.insertTextFormat⟩, ⟨_, h.insertTextMode⟩, ⟨_, h.textEdit⟩, ⟨_, h.additionalTextEdits⟩,
      ⟨_, h.command⟩, ⟨_, h.commitCharacters⟩, ⟨_, h.data⟩, ⟨_, h.tags⟩, by simp⟩
  · rintro ⟨⟨_, label⟩, ⟨_, labelDetails⟩, ⟨_, kind⟩, ⟨_, detail⟩, ⟨_, documentation⟩,
      ⟨_, deprecated⟩, ⟨_, preselect⟩, ⟨_, sortText⟩, ⟨_, filterText⟩, ⟨_, insertText⟩,
      ⟨_, insertTextFormat⟩, ⟨_, insertTextMode⟩, ⟨_, textEdit⟩, ⟨_, additionalTextEdits⟩,
      ⟨_, command⟩, ⟨_, commitCharacters⟩, ⟨_, data⟩, ⟨_, tags⟩, -⟩
    exact ⟨⟨_, _, _, _, _, _, _, _, _, _, _, _, _, _, _, _, _, _⟩, label, labelDetails, kind,
      detail, documentation, deprecated, preselect, sortText, filterText, insertText,
      insertTextFormat, insertTextMode, textEdit, additionalTextEdits, command, commitCharacters,
      data, tags⟩

end Item
end Autocomplete

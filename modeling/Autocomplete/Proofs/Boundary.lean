import Autocomplete.Merge
import Autocomplete.Proofs.Table
import Mathlib.Data.List.Perm.Basic
import Mathlib.Logic.Equiv.Basic

/-! Where the replaced text starts is decided by agreement alone. It does not depend on the order of
the items or of the servers, nor on servers that name no start. -/
namespace Autocomplete
open MergeRequest

/-- Some item has its range on the line, and all ranges there are in order and start at one
character. -/
structure AgreeOn (lineNumber : Nat) (items : List Item) (character : Nat) : Prop where
  any : ∃ item ∈ items, ∃ r, item.editRange = some r ∧ r.start.line = lineNumber
  all : ∀ item ∈ items, ∀ r, item.editRange = some r → r.start.line = lineNumber →
    r.start.character ≤ r.stop.character ∧ r.start.character = character

theorem agreedCharacter_eq_some_iff {lineNumber : Nat} {ranges : List Range} {character : Nat} :
    agreedCharacter lineNumber ranges = some character ↔
      (∃ r ∈ ranges, r.start.line = lineNumber) ∧
      ∀ r ∈ ranges, r.start.line = lineNumber →
        r.start.character ≤ r.stop.character ∧ r.start.character = character := by
  have hmem (r : Range) : r ∈ ranges.filter (·.start.line == lineNumber) ↔
      r ∈ ranges ∧ r.start.line = lineNumber := by simp
  unfold agreedCharacter
  cases hf : ranges.filter (·.start.line == lineNumber) with
  | nil =>
    simp only [hf, List.not_mem_nil, false_iff] at hmem
    constructor
    · intro h
      cases h
    · rintro ⟨⟨r, hr, hline⟩, _⟩
      exact absurd ⟨hr, hline⟩ (hmem r)
  | cons first rest =>
    rw [hf] at hmem
    obtain ⟨hfirst, hline⟩ := (hmem first).mp (by simp)
    constructor
    · intro h
      dsimp only at h
      split at h
      next hall =>
        obtain rfl := Option.some.inj h
        simp only [List.all_eq_true, Bool.and_eq_true, decide_eq_true_eq, beq_iff_eq] at hall
        exact ⟨⟨first, hfirst, hline⟩, fun r hr hl => hall r ((hmem r).mpr ⟨hr, hl⟩)⟩
      next => cases h
    · rintro ⟨_, hall⟩
      have hcharacter := (hall first hfirst hline).2
      dsimp only
      rw [if_pos, hcharacter]
      simp only [List.all_eq_true, Bool.and_eq_true, decide_eq_true_eq, beq_iff_eq]
      intro r hr
      obtain ⟨hr, hl⟩ := (hmem r).mp hr
      rw [hcharacter]
      exact hall r hr hl

/-- The start that a list of items names is where they agree that it is. -/
theorem resolveStart_eq_some_iff {lineNumber : Nat} {line : Text.Line} {items : List Item}
    {encoding : Encoding} {b : Nat} :
    resolveStart lineNumber line items encoding = some b ↔
      ∃ character, AgreeOn lineNumber items character ∧ b = encoding.byteColumn line character := by
  simp only [resolveStart, Option.map_eq_some_iff, agreedCharacter_eq_some_iff, List.mem_filterMap]
  constructor
  · rintro ⟨character, ⟨⟨r, ⟨item, hi, hr⟩, hl⟩, hall⟩, rfl⟩
    refine ⟨character, ⟨⟨item, hi, r, hr, hl⟩, ?_⟩, rfl⟩
    intro item hi r hr hl
    exact hall r ⟨item, hi, hr⟩ hl
  · rintro ⟨character, ⟨⟨item, hi, r, hr, hl⟩, hall⟩, rfl⟩
    refine ⟨character, ⟨⟨r, ⟨item, hi, hr⟩, hl⟩, ?_⟩, rfl⟩
    rintro r ⟨item, hi, hr⟩ hl
    exact hall item hi r hr hl

theorem AgreeOn.perm {lineNumber : Nat} {items others : List Item} {character : Nat}
    (h : AgreeOn lineNumber items character) (hp : items.Perm others) :
    AgreeOn lineNumber others character := by
  obtain ⟨⟨item, hi, hr⟩, hall⟩ := h
  exact ⟨⟨item, hp.mem_iff.mp hi, hr⟩, fun item hi => hall item (hp.mem_iff.mpr hi)⟩

/-- Items in another order name the same start. -/
theorem resolveStart_perm {items others : List Item} (hp : items.Perm others) (lineNumber : Nat)
    (line : Text.Line) (encoding : Encoding) :
    resolveStart lineNumber line items encoding = resolveStart lineNumber line others encoding := by
  refine Option.ext fun b => ?_
  rw [resolveStart_eq_some_iff, resolveStart_eq_some_iff]
  constructor
  · rintro ⟨character, h, hb⟩
    exact ⟨character, h.perm hp, hb⟩
  · rintro ⟨character, h, hb⟩
    exact ⟨character, h.perm hp.symm, hb⟩

/-- The items of a list keep their number and their fields when they are sent in another order. -/
theorem Response.ofList_perm (list : RawList) {items : List Json} (hp : list.items.Perm items) :
    (Response.ofList list).items.Perm (Response.ofList { list with items }).items :=
  hp.filterMap _

/-- An answer that is the same, or has the same items in another order. -/
inductive Reply.Rearranged : Option Reply → Option Reply → Prop where
  | same (reply : Option Reply) : Rearranged reply reply
  | items {v w : Json} (hp : (Response.ofJson v).items.Perm (Response.ofJson w).items) :
      Rearranged (some (.ok v)) (some (.ok w))

namespace MergeRequest

/-- How a server counts; one that is not attached counts in UTF-16. -/
def encodingIn (bindings : ServerMap Binding) (server : ServerId) : Encoding :=
  ((bindings.find? server).map (·.encoding)).getD .utf16

/-- The items that a server sent name a start. -/
def Names (request : MergeRequest) (replies : ServerMap Reply) (bindings : ServerMap Binding)
    (server : ServerId) (b : Nat) : Prop :=
  ∃ value, replies.find? server = some (.ok value) ∧
    resolveStart request.lineNumber request.line (Response.ofJson value).items
      (encodingIn bindings server) = some b

/-- Some server names a start, and no server names another one. -/
def Unanimous (request : MergeRequest) (replies : ServerMap Reply) (bindings : ServerMap Binding)
    (b : Nat) : Prop :=
  (∃ server, request.Names replies bindings server b) ∧
    ∀ server d, request.Names replies bindings server d → d = b

theorem unanimous?_eq_some_iff {columns : List Nat} {b : Nat} :
    unanimous? columns = some b ↔ b ∈ columns ∧ ∀ d ∈ columns, d = b := by
  cases columns with
  | nil => simp [unanimous?]
  | cons first rest =>
    simp only [unanimous?, List.all_eq_true, beq_iff_eq, List.mem_cons, forall_eq_or_imp]
    constructor
    · intro h
      split at h
      next hall =>
        obtain rfl := Option.some.inj h
        exact ⟨.inl rfl, rfl, hall⟩
      next => cases h
    · rintro ⟨_, rfl, hall⟩
      rw [if_pos hall]

section
variable {request : MergeRequest} {replies others : ServerMap Reply}
  {bindings changed : ServerMap Binding}

theorem mem_opinions {b : Nat} :
    b ∈ (answers replies bindings).filterMap request.opinion ↔
      ∃ server, request.Names replies bindings server b := by
  simp only [answers, List.mem_filterMap, Names, Table.find?_eq_some_iff]
  constructor
  · rintro ⟨answer, ⟨⟨server, reply⟩, hr, ha⟩, hb⟩
    cases reply with
    | error e => cases ha
    | ok value =>
      obtain rfl := Option.some.inj ha
      exact ⟨server, value, hr, hb⟩
  · rintro ⟨server, value, hr, hb⟩
    exact ⟨_, ⟨(server, .ok value), hr, rfl⟩, hb⟩

theorem unanimous?_opinions {b : Nat} :
    unanimous? ((answers replies bindings).filterMap request.opinion) = some b ↔
      request.Unanimous replies bindings b := by
  rw [unanimous?_eq_some_iff, mem_opinions]
  simp only [mem_opinions]
  constructor
  · rintro ⟨hb, hall⟩
    exact ⟨hb, fun server d hd => hall d ⟨server, hd⟩⟩
  · rintro ⟨hb, hall⟩
    exact ⟨hb, fun d ⟨server, hd⟩ => hall server d hd⟩

theorem startColumn_of_unanimous {b : Nat} (h : request.Unanimous replies bindings b) :
    request.startColumn (answers replies bindings) = b := by
  rw [startColumn, unanimous?_opinions.mpr h, Option.getD_some]

theorem startColumn_of_not_unanimous (h : ∀ b, ¬ request.Unanimous replies bindings b) :
    request.startColumn (answers replies bindings) = request.naiveStart := by
  have hn : unanimous? ((answers replies bindings).filterMap request.opinion) = none := by
    refine Option.eq_none_iff_forall_not_mem.mpr fun b hb => ?_
    exact h b (unanimous?_opinions.mp hb)
  rw [startColumn, hn, Option.getD_none]

/-- The start depends on nothing but which columns are named. -/
theorem startColumn_congr
    (h : ∀ b, (∃ server, request.Names replies bindings server b) ↔
      ∃ server, request.Names others changed server b) :
    request.startColumn (answers others changed) =
      request.startColumn (answers replies bindings) := by
  have hu (b : Nat) :
      request.Unanimous others changed b ↔ request.Unanimous replies bindings b := by
    simp only [Unanimous, ← h b, and_congr_right_iff]
    intro _
    constructor
    · intro hall server d hd
      obtain ⟨other, ho⟩ := (h d).mp ⟨server, hd⟩
      exact hall other d ho
    · intro hall server d hd
      obtain ⟨other, ho⟩ := (h d).mpr ⟨server, hd⟩
      exact hall other d ho
  by_cases hb : ∃ b, request.Unanimous replies bindings b
  · obtain ⟨b, hb⟩ := hb
    rw [startColumn_of_unanimous hb, startColumn_of_unanimous ((hu b).mpr hb)]
  · have hn (b : Nat) : ¬ request.Unanimous replies bindings b := fun h => hb ⟨b, h⟩
    rw [startColumn_of_not_unanimous hn,
      startColumn_of_not_unanimous fun b h => hn b ((hu b).mp h)]

theorem Names.rearranged
    (h : ∀ server, Reply.Rearranged (replies.find? server) (others.find? server))
    {server : ServerId} {b : Nat} :
    request.Names replies bindings server b ↔ request.Names others bindings server b := by
  unfold Names
  generalize hr : replies.find? server = reply
  generalize ho : others.find? server = other
  have hs := h server
  rw [hr, ho] at hs
  cases hs with
  | same => exact Iff.rfl
  | items hp =>
    have he := resolveStart_perm hp request.lineNumber request.line (encodingIn bindings server)
    constructor
    · rintro ⟨value, hv, hb⟩
      cases hv
      exact ⟨_, rfl, he.symm.trans hb⟩
    · rintro ⟨value, hv, hb⟩
      cases hv
      exact ⟨_, rfl, he.trans hb⟩

/-- A server under another number names what it named before. -/
theorem Names.renumbered {renumber : ServerId → ServerId}
    (hr : ∀ server, others.find? (renumber server) = replies.find? server)
    (hb : ∀ server, encodingIn changed (renumber server) = encodingIn bindings server)
    {server : ServerId} {b : Nat} :
    request.Names others changed (renumber server) b ↔ request.Names replies bindings server b := by
  rw [Names, hr, hb, Names]

/-- Answers that name no start are of no account. -/
theorem Names.extended
    (hr : ∀ server reply, replies.find? server = some reply → others.find? server = some reply)
    (hn : ∀ server, replies.find? server = none → ∀ b, ¬ request.Names others bindings server b)
    {server : ServerId} {b : Nat} :
    request.Names replies bindings server b ↔ request.Names others bindings server b := by
  constructor
  · rintro ⟨value, hv, hb⟩
    exact ⟨value, hr server _ hv, hb⟩
  · intro ho
    cases hs : replies.find? server with
    | none => exact absurd ho (hn server hs b)
    | some reply =>
      obtain ⟨value, hv, hb⟩ := ho
      rw [hr server reply hs] at hv
      exact ⟨value, hs.trans hv, hb⟩

end
end MergeRequest

/-- Items name a start exactly if some of them have a range on the line and all those ranges are in
order and start at one character. The text is replaced from the start that all servers name, if any
does, and else from the editor's own guess. Neither the order of items, nor how servers are
numbered, nor further answers that are errors or name no start make a difference. -/
theorem startColumn_byAgreement (request : MergeRequest) (replies : ServerMap Reply)
    (bindings : ServerMap Binding) (matcher : Matcher) :
    let start := (merge request replies bindings matcher).startColumn
    (∀ items encoding b, resolveStart request.lineNumber request.line items encoding = some b ↔
      ∃ character, AgreeOn request.lineNumber items character ∧
        b = encoding.byteColumn request.line character) ∧
    (∀ b, request.Unanimous replies bindings b → start = b) ∧
    ((∀ b, ¬ request.Unanimous replies bindings b) → start = request.naiveStart) ∧
    (∀ others, (∀ server, Reply.Rearranged (replies.find? server) (others.find? server)) →
      (merge request others bindings matcher).startColumn = start) ∧
    (∀ (renumber : Equiv.Perm ServerId) (others : ServerMap Reply) (changed : ServerMap Binding),
      (∀ server, others.find? (renumber server) = replies.find? server) →
      (∀ server, encodingIn changed (renumber server) = encodingIn bindings server) →
        (merge request others changed matcher).startColumn = start) ∧
    ∀ others,
      (∀ server reply, replies.find? server = some reply → others.find? server = some reply) →
      (∀ server, replies.find? server = none → ∀ b, ¬ request.Names others bindings server b) →
        (merge request others bindings matcher).startColumn = start := by
  intro start
  refine ⟨fun _ _ _ => resolveStart_eq_some_iff, fun b => startColumn_of_unanimous,
    startColumn_of_not_unanimous, ?_, ?_, ?_⟩
  · intro others h
    refine startColumn_congr fun b => ?_
    constructor
    · rintro ⟨server, hn⟩
      exact ⟨server, (Names.rearranged h).mp hn⟩
    · rintro ⟨server, hn⟩
      exact ⟨server, (Names.rearranged h).mpr hn⟩
  · intro renumber others changed hr hb
    refine startColumn_congr fun b => ?_
    constructor
    · rintro ⟨server, hn⟩
      exact ⟨renumber server, (Names.renumbered hr hb).mpr hn⟩
    · rintro ⟨server, hn⟩
      refine ⟨renumber.symm server, (Names.renumbered hr hb).mp ?_⟩
      rw [Equiv.apply_symm_apply]
      exact hn
  · intro others hr hn
    refine startColumn_congr fun b => ?_
    constructor
    · rintro ⟨server, hs⟩
      exact ⟨server, (Names.extended hr hn).mp hs⟩
    · rintro ⟨server, hs⟩
      exact ⟨server, (Names.extended hr hn).mpr hs⟩

/-- An item that replaces the text from one character to the next on the first line. -/
def itemFrom (character : Nat) (label : String) : Json :=
  .ofFields [("label", .str label),
    ("textEdit", .ofFields [("range", Range.encode ⟨⟨0, character⟩, ⟨0, character + 1⟩⟩),
      ("newText", .str label)])]

/-- Two servers that count differently name the column 3; the editor's own guess is the column 1. -/
def twoEncodings : MergeRequest × ServerMap Reply × ServerMap Binding :=
  ({ lineNumber := 0, line := ['a', 'ä', '😀', 'b'], cursorColumn := 7, naiveStart := 1 },
   Table.empty
    |>.insert ⟨1⟩ (.ok (.arr [itemFrom 2 "x", itemFrom 2 "y"]))
    |>.insert ⟨2⟩ (.ok (.arr [itemFrom 3 "z"])),
   Table.empty.insert ⟨2⟩
    (.ofCapabilities ⟨2⟩ { positionEncoding := some "utf-8", completion := some {} } {} {}))

/-- The items come in another order, the servers change their numbers, and a third one sends an
error. -/
theorem startColumn_byAgreement_twoEncodings :
    let replies := twoEncodings.2.1
    let bindings := twoEncodings.2.2
    let start (replies : ServerMap Reply) (bindings : ServerMap Binding) :=
      (merge twoEncodings.1 replies bindings ⟨fun _ _ => true⟩).startColumn
    start replies bindings = 3 ∧
    start (replies.insert ⟨1⟩ (.ok (.arr [itemFrom 2 "y", itemFrom 2 "x"]))) bindings = 3 ∧
    (∀ others changed, (∀ server, others.find? (Equiv.swap ⟨1⟩ ⟨2⟩ server) = replies.find? server) →
      (∀ server, changed.find? (Equiv.swap ⟨1⟩ ⟨2⟩ server) = bindings.find? server) →
        start others changed = 3) ∧
    start (replies.insert ⟨3⟩ (.error ⟨0, "late"⟩)) bindings = 3 := by
  intro replies bindings start
  have hstart : start replies bindings = 3 := by decide +kernel
  have hthird : replies.find? ⟨3⟩ = none := rfl
  obtain ⟨_, _, _, hitems, hservers, hmore⟩ :=
    startColumn_byAgreement twoEncodings.1 replies bindings ⟨fun _ _ => true⟩
  refine ⟨hstart, ?_, ?_, ?_⟩
  · refine (hitems _ fun server => ?_).trans hstart
    rw [Table.find?_insert]
    split
    next h =>
      subst h
      have hp : [itemFrom 2 "x", itemFrom 2 "y"].Perm [itemFrom 2 "y", itemFrom 2 "x"] := .swap ..
      exact .items (Response.ofList_perm { items := [itemFrom 2 "x", itemFrom 2 "y"] } hp)
    next => exact .same _
  · intro others changed hr hb
    refine (hservers _ others changed hr fun server => ?_).trans hstart
    rw [encodingIn, hb, encodingIn]
  · refine (hmore _ ?_ ?_).trans hstart
    · intro server reply hr
      rw [Table.find?_insert, if_neg, hr]
      rintro rfl
      rw [hthird] at hr
      cases hr
    · rintro server hnone b ⟨value, hv, hb⟩
      rw [Table.find?_insert] at hv
      split at hv
      · cases hv
      · rw [hnone] at hv
        cases hv

end Autocomplete

import Autocomplete.Match
import Mathlib.Data.List.TakeWhile

/-! The word that an item puts in, beside the text that its server means. The word is the label or a
first part of that text, and how much of it is decided by the format of the item and by whether it has
an edit. -/
namespace Autocomplete
open Text

/-- The longest first part of a text whose characters all have a property. -/
structure LongestLead (p : Char → Bool) (text word : String) : Prop where
  lead : word.toList <+: text.toList
  all : ∀ c ∈ word.toList, p c = true
  longest : ∀ u, u <+: text.toList → (∀ c ∈ u, p c = true) → u <+: word.toList

theorem longestLead_takeWhile (p : Char → Bool) (text : String) :
    LongestLead p text (String.ofList (text.toList.takeWhile p)) := by
  constructor <;> rw [String.toList_ofList]
  · exact List.takeWhile_prefix p
  · exact fun c hc => List.mem_takeWhile_imp hc
  · rintro u ⟨v, hv⟩ hu
    rw [← hv, List.takeWhile_append_of_pos hu]
    exact List.prefix_append _ _

namespace Item

/-- A text without its first `offset` characters and a label begin with the same character. -/
def StartsAlike (text : String) (offset : Nat) (label : String) : Prop :=
  ∃ c, text.toList[offset]? = some c ∧ label.toList.head? = some c

theorem startsLikeLabel_iff {text : String} {offset : Nat} {label : String} :
    startsLikeLabel text offset label = true ↔ StartsAlike text offset label := by
  unfold startsLikeLabel StartsAlike
  cases htext : text.toList[offset]? with
  | none => simp
  | some a =>
    cases hlabel : label.toList.head? with
    | none => simp
    | some b =>
      simp only [beq_iff_eq, Option.some.injEq, exists_eq_left']
      exact eq_comm

theorem nonemptyInsertText_eq_some_iff {item : Item} {text : String} :
    item.nonemptyInsertText = some text ↔ item.insertText = some text ∧ text ≠ "" := by
  simp [nonemptyInsertText, Option.filter_eq_some_iff]

section
variable {item : Item} (hkind : item.kind ≠ some snippetKind) (fuzzy : Bool) (offset : Nat)
include hkind

theorem wordFor_plainEdit (hf : item.isSnippet = false) {edit : ItemEdit}
    (he : item.textEdit = some edit) :
    LongestLead (fun c => !isBlank c) edit.newText (item.wordFor fuzzy offset) := by
  simp only [wordFor, hkind, hf, he, if_false, Bool.false_eq_true, leadingWord]
  exact longestLead_takeWhile _ _

theorem wordFor_plainText (hf : item.isSnippet = false) (he : item.textEdit = none) :
    item.wordFor fuzzy offset = item.nonemptyInsertText.getD item.label := by
  simp [wordFor, hkind, hf, he]

theorem wordFor_templateEdit (hf : item.isSnippet = true) {edit : ItemEdit}
    (he : item.textEdit = some edit) :
    (fuzzy = true ∨ StartsAlike edit.newText offset item.label →
      item.wordFor fuzzy offset = edit.newText) ∧
    (¬ (fuzzy = true ∨ StartsAlike edit.newText offset item.label) →
      item.wordFor fuzzy offset = item.label) := by
  rw [← startsLikeLabel_iff, ← Bool.or_eq_true]
  simp only [wordFor, hkind, hf, he, if_false, if_true]
  exact ⟨fun h => if_pos h, fun h => if_neg h⟩

theorem wordFor_templateText (hf : item.isSnippet = true) (he : item.textEdit = none) {text : String}
    (ht : item.nonemptyInsertText = some text) :
    ∃ name, LongestLead isIdentifier text name ∧
      item.wordFor fuzzy offset = if name = "" then item.label else name := by
  refine ⟨leadingIdentifier text, longestLead_takeWhile _ _, ?_⟩
  by_cases h : leadingIdentifier text = "" <;>
    simp [wordFor, hkind, hf, he, ht, h, Option.filter_some]

theorem wordFor_templateNone (hf : item.isSnippet = true) (he : item.textEdit = none)
    (ht : item.nonemptyInsertText = none) : item.wordFor fuzzy offset = item.label := by
  simp [wordFor, hkind, hf, he, ht]

end

/-- The word is the label, or the text that the server means begins with it. -/
theorem wordFor_drawn (item : Item) (fuzzy : Bool) (offset : Nat) :
    item.wordFor fuzzy offset = item.label ∨
      ∃ text, item.replacementText = some text ∧
        (item.wordFor fuzzy offset).toList <+: text.toList := by
  by_cases hkind : item.kind = some snippetKind
  · exact .inl (by rw [wordFor, if_pos hkind])
  cases hf : item.isSnippet with
  | false =>
    cases he : item.textEdit with
    | some edit =>
      exact .inr ⟨edit.newText, by rw [replacementText, he],
        (wordFor_plainEdit hkind fuzzy offset hf he).lead⟩
    | none =>
      rw [wordFor_plainText hkind fuzzy offset hf he, replacementText, he]
      cases item.nonemptyInsertText with
      | some text => exact .inr ⟨text, rfl, List.prefix_refl _⟩
      | none => exact .inl rfl
  | true =>
    cases he : item.textEdit with
    | some edit =>
      have hword := wordFor_templateEdit hkind fuzzy offset hf he
      by_cases h : fuzzy = true ∨ StartsAlike edit.newText offset item.label
      · exact .inr ⟨edit.newText, by rw [replacementText, he],
          [], by rw [hword.1 h, List.append_nil]⟩
      · exact .inl (hword.2 h)
    | none =>
      cases ht : item.nonemptyInsertText with
      | some text =>
        obtain ⟨name, hname, hword⟩ := wordFor_templateText hkind fuzzy offset hf he ht
        by_cases h : name = ""
        · exact .inl (by rw [hword, if_pos h])
        · refine .inr ⟨text, by rw [replacementText, he, ht], ?_⟩
          rw [hword, if_neg h]
          exact hname.lead
      | none => exact .inl (wordFor_templateNone hkind fuzzy offset hf he ht)

/-- The word is the label, or the text that the server means begins with it. Unless the item is a snippet
by its kind, it is as much of the text of an edit as is free of blanks; all of a nonempty insert text if
there is no edit; with tab stops, the identifier at the start of such an insert text, or the label if
there is none; and with tab stops and an edit, the text of the edit if the server filters or if it starts,
where the typed word does, as the label does, and the label if not. -/
theorem wordFor_agrees (item : Item) (fuzzy : Bool) (offset : Nat) :
    let word := item.wordFor fuzzy offset
    (word = item.label ∨ ∃ text, item.replacementText = some text ∧ word.toList <+: text.toList) ∧
    (item.kind ≠ some snippetKind →
      (∀ edit, item.isSnippet = false → item.textEdit = some edit →
        LongestLead (fun c => !isBlank c) edit.newText word) ∧
      (∀ text, item.isSnippet = true → item.textEdit = none →
        item.insertText = some text → text ≠ "" →
        ∃ name, LongestLead isIdentifier text name ∧
          word = if name = "" then item.label else name) ∧
      (∀ edit, item.isSnippet = true → item.textEdit = some edit →
        (fuzzy = true ∨ StartsAlike edit.newText offset item.label → word = edit.newText) ∧
        (¬ (fuzzy = true ∨ StartsAlike edit.newText offset item.label) → word = item.label)) ∧
      (item.isSnippet = false → item.textEdit = none →
        (∀ text, item.insertText = some text → text ≠ "" → word = text) ∧
        ((∀ text, item.insertText = some text → text = "") → word = item.label))) := by
  intro word
  refine ⟨wordFor_drawn item fuzzy offset, fun hkind => ⟨?_, ?_, ?_, ?_⟩⟩
  · intro edit hf he
    exact wordFor_plainEdit hkind fuzzy offset hf he
  · intro text hf he ht hne
    exact wordFor_templateText hkind fuzzy offset hf he (nonemptyInsertText_eq_some_iff.mpr ⟨ht, hne⟩)
  · intro edit hf he
    exact wordFor_templateEdit hkind fuzzy offset hf he
  · intro hf he
    have hword : word = item.nonemptyInsertText.getD item.label :=
      wordFor_plainText hkind fuzzy offset hf he
    constructor
    · intro text ht hne
      rw [hword, nonemptyInsertText_eq_some_iff.mpr ⟨ht, hne⟩, Option.getD_some]
    · intro hempty
      have hnone : item.nonemptyInsertText = none := by
        refine Option.eq_none_iff_forall_not_mem.mpr fun text ht => ?_
        obtain ⟨hi, hne⟩ := nonemptyInsertText_eq_some_iff.mp ht
        exact hne (hempty text hi)
      rw [hword, hnone, Option.getD_none]

/-- The first three characters of a line are replaced. -/
def editTo (newText : String) : ItemEdit := .replace ⟨⟨⟨0, 0⟩, ⟨0, 3⟩⟩, newText⟩

/-- An item of each form: with an edit, with tab stops, with both, and with neither. -/
theorem wordFor_agrees_eachForm :
    let edited : Item := { label := "foo", textEdit := some (editTo "für alle") }
    let template : Item :=
      { label := "foo", insertTextFormat := some 2, insertText := some "für($1)" }
    let both : Item :=
      { label := "foo", insertTextFormat := some 2, textEdit := some (editTo ".foo($1)") }
    let bare : Item := { label := "foo", insertText := some "für alle" }
    LongestLead (fun c => !isBlank c) "für alle" (edited.wordFor false 0) ∧
    (∃ name, LongestLead isIdentifier "für($1)" name ∧
      template.wordFor false 0 = if name = "" then "foo" else name) ∧
    both.wordFor false 1 = ".foo($1)" ∧ both.wordFor false 0 = "foo" ∧
    bare.wordFor false 0 = "für alle" := by
  intro edited template both bare
  obtain ⟨_, hedited⟩ := wordFor_agrees edited false 0
  obtain ⟨_, htemplate⟩ := wordFor_agrees template false 0
  obtain ⟨_, hboth⟩ := wordFor_agrees both false 0
  obtain ⟨_, hdotted⟩ := wordFor_agrees both false 1
  obtain ⟨_, hbare⟩ := wordFor_agrees bare false 0
  have halike : StartsAlike ".foo($1)" 1 "foo" := startsLikeLabel_iff.mp (by decide +kernel)
  have hapart : ¬ StartsAlike ".foo($1)" 0 "foo" :=
    fun h => absurd (startsLikeLabel_iff.mpr h) (by decide +kernel)
  refine ⟨?_, ?_, ?_, ?_, ?_⟩
  · exact (hedited (by decide)).1 _ rfl rfl
  · exact (htemplate (by decide)).2.1 _ rfl rfl rfl (by decide)
  · exact ((hdotted (by decide)).2.2.1 _ rfl rfl).1 (.inr halike)
  · refine ((hboth (by decide)).2.2.1 _ rfl rfl).2 ?_
    rintro (h | h)
    · cases h
    · exact hapart h
  · exact ((hbare (by decide)).2.2.2 rfl rfl).1 _ rfl (by decide)

end Item
end Autocomplete

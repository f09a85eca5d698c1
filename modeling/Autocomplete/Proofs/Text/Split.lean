import Autocomplete.Text.Split
import Mathlib.Data.List.DropRight

/-! Splitting and trimming. The parts of a text do not hold the separator, and whatever parts without it
are joined are found again. Trimming leaves a text alone that has no blanks at its ends. -/
namespace Autocomplete.Text

theorem splitAtEach_eq_splitOn (separator : Char) (text : List Char) :
    splitAtEach separator text = text.splitOn separator := by
  induction text with
  | nil => rfl
  | cons c rest ih =>
    rw [List.splitOn_cons_eq_if_modifyHead, ← ih, splitAtEach]
    by_cases hc : c = separator
    · simp [hc]
    · obtain ⟨part, others, hparts⟩ := List.exists_cons_of_ne_nil (splitAtEach_ne_nil separator rest)
      simp [hc, hparts]

theorem splitAtEach_intercalate {separator : Char} {parts : List (List Char)} (hne : parts ≠ [])
    (h : ∀ part ∈ parts, separator ∉ part) :
    splitAtEach separator ([separator].intercalate parts) = parts := by
  rw [splitAtEach_eq_splitOn, List.splitOn_intercalate separator h hne]

theorem separator_notMem {separator : Char} {text part : List Char}
    (h : part ∈ splitAtEach separator text) : separator ∉ part := by
  induction text generalizing part with
  | nil => simp_all [splitAtEach]
  | cons c rest ih =>
    by_cases hc : c = separator
    · simp only [splitAtEach, hc, if_true, List.mem_cons] at h
      rcases h with rfl | h
      · exact List.not_mem_nil
      · exact ih h
    · obtain ⟨first, others, hparts⟩ := List.exists_cons_of_ne_nil (splitAtEach_ne_nil separator rest)
      simp only [splitAtEach, hc, if_false, hparts, List.mem_cons] at h
      rcases h with rfl | h
      · have hfirst : separator ∉ first := ih (by simp [hparts])
        simp [hfirst, Ne.symm hc]
      · exact ih (by simp [hparts, h])

theorem trim_eq_self {text : List Char} (hfirst : ∀ c ∈ text.head?, isBlank c = false)
    (hlast : ∀ c ∈ text.getLast?, isBlank c = false) : trim text = text := by
  have hleft : text.dropWhile isBlank = text := by
    cases text with
    | nil => rfl
    | cons c rest => exact List.dropWhile_cons_of_neg (by simp [hfirst c rfl])
  have hright : text.rdropWhile isBlank = text := by
    refine List.rdropWhile_eq_self_iff.mpr fun hne => ?_
    simp [hlast _ (List.getLast?_eq_some_getLast hne)]
  rw [trim, hleft]
  exact hright

theorem trim_isInfix (text : List Char) : trim text <:+: text :=
  (List.rdropWhile_prefix isBlank (text.dropWhile isBlank)).isInfix.trans
    (List.dropWhile_suffix isBlank).isInfix

theorem not_isBlank_of_head_trim (text : List Char) {c : Char} (h : c ∈ (trim text).head?) :
    isBlank c = false := by
  obtain ⟨rest, htrim⟩ := List.rdropWhile_prefix isBlank (text.dropWhile isBlank)
  have hhead : (text.dropWhile isBlank).head? = some c := by
    rw [← htrim, List.head?_append]
    simp [show (List.rdropWhile isBlank (text.dropWhile isBlank)).head? = some c from h]
  have hdrop := List.head?_dropWhile_not isBlank text
  rw [hhead] at hdrop
  exact hdrop

end Autocomplete.Text

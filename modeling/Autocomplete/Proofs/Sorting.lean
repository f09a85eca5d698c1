import Mathlib.Data.List.Sort

/-! Sorting by a preorder keeps the order of elements that tie. -/
namespace Autocomplete

section
variable {α : Type} {le : α → α → Bool}

/-- Elements that are in order already stay in that order. -/
theorem filter_mergeSort_of_pairwise (trans : ∀ a b c, le a b = true → le b c = true → le a c = true)
    (total : ∀ a b, (le a b || le b a) = true) (l : List α) (p : α → Bool)
    (h : (l.filter p).Pairwise (le · · = true)) : (l.mergeSort le).filter p = l.filter p := by
  have hsub := (List.sublist_mergeSort trans total h List.filter_sublist).filter p
  have hlen := ((List.mergeSort_perm l le).filter p).length_eq
  simp only [List.filter_filter, Bool.and_self] at hsub
  exact (hsub.eq_of_length hlen.symm).symm

/-- What holds of all pairs in a list holds of the pairs that tie once the list is sorted. -/
theorem pairwise_mergeSort_of_pairwise
    (trans : ∀ a b c, le a b = true → le b c = true → le a c = true)
    (total : ∀ a b, (le a b || le b a) = true) {l : List α} {R : α → α → Prop}
    (h : l.Pairwise R) :
    (l.mergeSort le).Pairwise fun a b => le a b = true ∧ (le b a = true → R a b) := by
  rw [List.pairwise_iff_forall_sublist]
  intro a b hab
  have hle : le a b = true :=
    List.pairwise_iff_forall_sublist.mp (List.pairwise_mergeSort trans total l) hab
  refine ⟨hle, fun hba => List.pairwise_iff_forall_sublist.mp h ?_⟩
  have haa : le a a = true := by simpa using total a a
  -- The elements that tie with `a` stand in the sorted list as they do in `l`.
  let tied (x : α) : Bool := le a x && le x a
  have hties : (l.filter tied).Pairwise (le · · = true) := by
    refine List.pairwise_of_forall_mem_list fun x hx y hy => ?_
    have hxa : le x a = true := (Bool.and_eq_true_iff.mp (List.mem_filter.mp hx).2).2
    have hay : le a y = true := (Bool.and_eq_true_iff.mp (List.mem_filter.mp hy).2).1
    exact trans x a y hxa hay
  have hsub := hab.filter tied
  rw [filter_mergeSort_of_pairwise trans total l tied hties] at hsub
  have hboth : [a, b].filter tied = [a, b] := by simp [tied, haa, hle, hba]
  rw [hboth] at hsub
  exact hsub.trans List.filter_sublist

end
end Autocomplete

import Autocomplete.Latency
import Mathlib.Algebra.Order.Field.Basic
import Mathlib.Algebra.Order.Field.Rat
import Mathlib.Data.List.Forall2
import Mathlib.Data.List.Induction
import Mathlib.Tactic.FieldSimp
import Mathlib.Tactic.Linarith
import Mathlib.Tactic.NormNum
import Mathlib.Tactic.Positivity
import Mathlib.Tactic.Ring

/-! The running average over exact numbers. A new sample takes a share of the average and leaves the rest
to what was there before. All shares are between 0 and 1, and the first sample takes all of it, so that
the average rises with each sample and equal samples have their value as average; that it stays between
the smallest and the largest sample follows from both. -/
namespace Autocomplete.Average

/-- The share of a sample that follows a number of others. -/
def share (count : Nat) : ℚ := if count < window then 1 / ((count : ℚ) + 1) else weight

theorem share_pos (count : Nat) : 0 < share count := by
  unfold share
  split
  · positivity
  · norm_num [weight, window]

theorem share_le_one (count : Nat) : share count ≤ 1 := by
  unfold share
  split
  · rw [div_le_one (by positivity)]
    linarith [Nat.cast_nonneg (α := ℚ) count]
  · norm_num [weight, window]

theorem share_zero : share 0 = 1 := by norm_num [share, window]

theorem record_count (average : Average ℚ) (sample : ℚ) :
    (average.record sample).count =
      if average.count < window then average.count + 1 else average.count := by
  unfold record
  split <;> rfl

theorem record_value (average : Average ℚ) (sample : ℚ) : (average.record sample).value =
    share average.count * sample + (1 - share average.count) * average.value := by
  unfold record share
  split
  · dsimp only
    push_cast
    ring
  · norm_num

/-- The average rises with the sample and with what it was. The first sample does not depend on what it
was. -/
theorem record_value_mono {a b : Average ℚ} {x y : ℚ} (hc : a.count = b.count)
    (hv : a.count = 0 ∨ a.value ≤ b.value) (hx : x ≤ y) :
    (a.record x).value ≤ (b.record y).value := by
  rw [record_value, record_value, ← hc]
  have hsample := mul_le_mul_of_nonneg_left hx (share_pos a.count).le
  rcases hv with hzero | hle
  · rw [hzero, share_zero]
    linarith
  · have hrest := mul_le_mul_of_nonneg_left hle (sub_nonneg.mpr (share_le_one a.count))
    linarith

theorem ofSamples_concat (samples : List ℚ) (sample : ℚ) :
    ofSamples (samples ++ [sample]) = (ofSamples samples).record sample := by
  rw [ofSamples, ofSamples, List.foldl_append]
  rfl

theorem ofSamples_count (samples : List ℚ) :
    (ofSamples samples).count = min samples.length window := by
  induction samples using List.reverseRecOn with
  | nil => rfl
  | append_singleton samples sample ih =>
    rw [ofSamples_concat, record_count, ih, List.length_append, List.length_singleton]
    split <;> omega

/-- While all samples count alike, their sum is divided among them. -/
theorem ofSamples_value_mul_length {samples : List ℚ} (h : samples.length ≤ window) :
    (ofSamples samples).value * samples.length = samples.sum := by
  induction samples using List.reverseRecOn with
  | nil => simp
  | append_singleton samples sample ih =>
    rw [List.length_append, List.length_singleton] at h
    have hcount : (ofSamples samples).count = samples.length := by
      rw [ofSamples_count]
      omega
    have hsum := ih (by omega)
    rw [ofSamples_concat, record_value, hcount, share, if_pos (by omega), List.sum_append,
      List.sum_singleton, ← hsum, List.length_append, List.length_singleton]
    push_cast
    field_simp
    ring

/-- Greater samples have a greater average. -/
theorem ofSamples_mono {lower upper : List ℚ} (h : List.Forall₂ (· ≤ ·) lower upper) :
    (ofSamples lower).value ≤ (ofSamples upper).value := by
  have hboth : (ofSamples lower).count = (ofSamples upper).count ∧
      (ofSamples lower).value ≤ (ofSamples upper).value := by
    refine List.rel_foldl (P := fun a b : Average ℚ => a.count = b.count ∧ a.value ≤ b.value)
      (R := (· ≤ ·)) ?_ ⟨rfl, le_rfl⟩ h
    rintro a b ⟨hc, hv⟩ x y hx
    refine ⟨?_, record_value_mono hc (.inr hv) hx⟩
    rw [record_count, record_count, hc]
  exact hboth.2

theorem ofSamples_const {samples : List ℚ} (h : samples ≠ []) (c : ℚ) :
    (ofSamples (samples.map fun _ => c)).value = c := by
  induction samples using List.reverseRecOn with
  | nil => exact absurd rfl h
  | append_singleton samples sample ih =>
    rw [List.map_append, List.map_singleton, ofSamples_concat, record_value]
    by_cases hs : samples = []
    · subst hs
      rw [List.map_nil, show (ofSamples ([] : List ℚ)).count = 0 from rfl, share_zero]
      ring
    · rw [ih hs]
      ring

section
variable {samples : List ℚ} (h : samples ≠ []) {c : ℚ}
include h

theorem le_ofSamples (hc : ∀ x ∈ samples, c ≤ x) : c ≤ (ofSamples samples).value := by
  conv => lhs; rw [← ofSamples_const h c]
  refine ofSamples_mono ?_
  rw [List.forall₂_map_left_iff]
  exact List.forall₂_same.mpr hc

theorem ofSamples_le (hc : ∀ x ∈ samples, x ≤ c) : (ofSamples samples).value ≤ c := by
  conv => rhs; rw [← ofSamples_const h c]
  refine ofSamples_mono ?_
  rw [List.forall₂_map_right_iff]
  exact List.forall₂_same.mpr hc

end

theorem forall₂_le_set {samples : List ℚ} {i : Nat} (hi : i < samples.length) {sample : ℚ}
    (h : samples[i] ≤ sample) : List.Forall₂ (· ≤ ·) samples (samples.set i sample) := by
  refine List.forall₂_iff_get.mpr ⟨(List.length_set ..).symm, fun j hj _ => ?_⟩
  simp only [List.get_eq_getElem, List.getElem_set]
  split
  next hij =>
    subst hij
    exact h
  next => exact le_rfl

/-- The average of at most ten samples is their mean. From then on a sample takes two elevenths of it.
It is never less than the smallest sample or more than the largest, and raising one of the samples
does not lower it. -/
theorem ofSamples_isBoundedAverage (samples : List ℚ) (h : samples ≠ []) :
    (samples.length ≤ 10 → (ofSamples samples).value = samples.sum / samples.length) ∧
    (∀ sample, 10 ≤ samples.length → (ofSamples (samples ++ [sample])).value =
      2 / 11 * sample + 9 / 11 * (ofSamples samples).value) ∧
    (∃ low high, samples.min? = some low ∧ samples.max? = some high ∧
      low ≤ (ofSamples samples).value ∧ (ofSamples samples).value ≤ high) ∧
    ∀ (i : Nat) (hi : i < samples.length) (sample : ℚ), samples[i] ≤ sample →
      (ofSamples samples).value ≤ (ofSamples (samples.set i sample)).value := by
  refine ⟨?_, ?_, ?_, ?_⟩
  · intro hl
    have hpos : (samples.length : ℚ) ≠ 0 := by
      exact_mod_cast (List.length_pos_iff.mpr h).ne'
    exact (eq_div_iff hpos).mpr (ofSamples_value_mul_length hl)
  · intro sample hl
    have hcount : (ofSamples samples).count = window := by
      rw [ofSamples_count]
      exact Nat.min_eq_right hl
    rw [ofSamples_concat, record_value, hcount]
    norm_num [share, weight, window]
  · obtain ⟨low, hlow⟩ := Option.isSome_iff_exists.mp (List.isSome_min?_of_ne_nil h)
    obtain ⟨high, hhigh⟩ := Option.isSome_iff_exists.mp (List.isSome_max?_of_ne_nil h)
    exact ⟨low, high, hlow, hhigh, le_ofSamples h (List.min?_eq_some_iff.mp hlow).2,
      ofSamples_le h (List.max?_eq_some_iff.mp hhigh).2⟩
  · intro i hi sample hs
    exact ofSamples_mono (forall₂_le_set hi hs)

/-- Ten answers that took the same time. -/
def steady : List ℚ := List.replicate 10 100

/-- An answer that takes 210 after ten that took 100 raises the average to 120. Had one of the ten taken
400, it would not be less. -/
theorem ofSamples_isBoundedAverage_slowAnswer :
    (ofSamples steady).value = 100 ∧ (ofSamples (steady ++ [210])).value = 120 ∧
    (ofSamples ((steady ++ [210]).set 3 400)).value ∈ Set.Icc 120 400 := by
  obtain ⟨hmean, hnext, _, _⟩ := ofSamples_isBoundedAverage steady (by decide)
  obtain ⟨_, _, _, hraise⟩ := ofSamples_isBoundedAverage (steady ++ [210]) (by decide)
  obtain ⟨_, _, ⟨low, high, _, hhigh, _, hle⟩, _⟩ :=
    ofSamples_isBoundedAverage ((steady ++ [210]).set 3 400) (by decide)
  have hsteady : (ofSamples steady).value = 100 := by
    rw [hmean (by decide)]
    norm_num [steady]
  have hslow : (ofSamples (steady ++ [210])).value = 120 := by
    rw [hnext 210 (by decide), hsteady]
    norm_num
  have hmax : ((steady ++ [210]).set 3 400).max? = some 400 := by decide +kernel
  obtain rfl := Option.some.inj (hhigh.symm.trans hmax)
  refine ⟨hsteady, hslow, ?_, hle⟩
  rw [← hslow]
  exact hraise 3 (by decide) 400 (by decide +kernel)

end Autocomplete.Average

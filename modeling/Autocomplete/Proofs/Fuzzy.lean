import Autocomplete.Fuzzy

/-! What a matcher leaves of some candidates. It is asked about each of them in its turn, and what it
keeps stays in order. -/
namespace Autocomplete

namespace Matcher
variable {α β : Type} {matcher : Matcher}

theorem sift_snd (candidates : List (α × Option Question)) :
    (matcher.sift candidates).2 = matcher.after (candidates.filterMap (·.2)) := by
  induction candidates generalizing matcher with
  | nil => rfl
  | cons c rest ih =>
    obtain ⟨a, _ | q⟩ := c
    · exact ih
    · change ((matcher.after [q]).sift rest).2 = _
      rw [ih]
      simp [after]

theorem sift_map (f : α → β) (candidates : List (α × Option Question)) :
    (matcher.sift (candidates.map fun c => (f c.1, c.2))).1 = (matcher.sift candidates).1.map f := by
  induction candidates generalizing matcher with
  | nil => rfl
  | cons c rest ih =>
    obtain ⟨a, _ | q⟩ := c
    · exact congrArg (f a :: ·) ih
    · simp only [List.map_cons, sift, ih]
      split <;> rfl

theorem sift_sublist (candidates : List (α × Option Question)) :
    (matcher.sift candidates).1.Sublist (candidates.map (·.1)) := by
  induction candidates generalizing matcher with
  | nil => exact List.Sublist.refl _
  | cons c rest ih =>
    obtain ⟨a, _ | q⟩ := c
    · exact ih.cons_cons a
    · simp only [sift, List.map_cons]
      split
      · exact ih.cons_cons a
      · exact ih.cons a

theorem exists_split_cons {c : α} {rest : List α} {p : List α → α → Prop} :
    (∃ before a after, c :: rest = before ++ a :: after ∧ p before a) ↔
      p [] c ∨ ∃ before a after, rest = before ++ a :: after ∧ p (c :: before) a := by
  constructor
  · rintro ⟨before, a, after, h, hp⟩
    cases before with
    | nil =>
      obtain ⟨rfl, rfl⟩ := List.cons.inj h
      exact .inl hp
    | cons d before =>
      obtain ⟨rfl, rfl⟩ := List.cons.inj h
      exact .inr ⟨before, a, after, rfl, hp⟩
  · rintro (hp | ⟨before, a, after, rfl, hp⟩)
    · exact ⟨[], c, rest, rfl, hp⟩
    · exact ⟨c :: before, a, after, rfl, hp⟩

/-- What is kept has no question, or one that is answered with yes after those before it. -/
theorem mem_sift {a : α} {candidates : List (α × Option Question)} :
    a ∈ (matcher.sift candidates).1 ↔ ∃ before c after, candidates = before ++ c :: after ∧
      c.1 = a ∧ ∀ q, c.2 = some q → matcher.answer (before.filterMap (·.2)) q = true := by
  induction candidates generalizing matcher with
  | nil => simp [sift]
  | cons c rest ih =>
    rw [exists_split_cons]
    obtain ⟨b, _ | q⟩ := c
    · simp [sift, ih, @eq_comm _ a b]
    · by_cases hq : matcher.answer [] q = true <;> simp [sift, ih, hq, after, @eq_comm _ a b]

end Matcher
end Autocomplete

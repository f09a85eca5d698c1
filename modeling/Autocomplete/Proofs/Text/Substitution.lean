/-! Substituting several parts of a text at once. Offsets count the characters of the text as it is
before any of the parts is replaced. -/
namespace Autocomplete

/-- A text that is put in place of the one from `start` up to `stop`. -/
structure Replacement where
  start : Nat
  stop : Nat
  text : List Char
  deriving DecidableEq, Repr

namespace Replacement

def covers (r : Replacement) (i : Nat) : Bool := r.start ≤ i && i < r.stop

def IsInsertion (r : Replacement) : Prop := r.start = r.stop

def Apart (a b : Replacement) : Prop := a.stop ≤ b.start ∨ b.stop ≤ a.start

instance (r : Replacement) : Decidable r.IsInsertion := inferInstanceAs (Decidable (_ = _))

instance (a b : Replacement) : Decidable (Apart a b) := inferInstanceAs (Decidable (_ ∨ _))

/-- Replacements of disjoint parts; of those with the same start, only the last one may replace
anything. -/
structure Compatible (rs : List Replacement) : Prop where
  apart : rs.Pairwise Apart
  insertionsFirst : rs.Pairwise fun a b => a.start = b.start → a.IsInsertion

/-- What is put in at an offset. -/
def inserted (rs : List Replacement) (i : Nat) : List Char :=
  (rs.filter fun r => r.start = i).flatMap text

/-- A text that begins at offset `i` of the whole: before each character stands what is put in
there, and a character that is covered is left out. -/
def substituteFrom (rs : List Replacement) : Nat → List Char → List Char
  | i, [] => inserted rs i
  | i, c :: rest =>
    inserted rs i ++ (if rs.any (·.covers i) then [] else [c]) ++ substituteFrom rs (i + 1) rest

/-- The text after all replacements. -/
def substitute (rs : List Replacement) (text : List Char) : List Char := substituteFrom rs 0 text

theorem inserted_eq_nil {rs : List Replacement} {i : Nat} (h : ∀ r ∈ rs, r.start ≠ i) :
    inserted rs i = [] := by
  have hf : rs.filter (fun r => r.start = i) = [] := by simpa using h
  rw [inserted, hf, List.flatMap_nil]

/-- Before all replacements the text stays as it is. -/
theorem substituteFrom_append {rs : List Replacement} {u : List Char} {i : Nat}
    (h : ∀ r ∈ rs, i + u.length ≤ r.start) (v : List Char) :
    substituteFrom rs i (u ++ v) = u ++ substituteFrom rs (i + u.length) v := by
  induction u generalizing i with
  | nil => simp
  | cons c u ih =>
    have hi : inserted rs i = [] := by
      apply inserted_eq_nil
      intro r hr he
      have hlen := h r hr
      simp only [List.length_cons] at hlen
      omega
    have hc : rs.any (·.covers i) = false := by
      simp only [List.any_eq_false, covers, Bool.and_eq_true, decide_eq_true_eq, not_and]
      intro r hr hle
      have hlen := h r hr
      simp only [List.length_cons] at hlen
      omega
    have hrest : ∀ r ∈ rs, i + 1 + u.length ≤ r.start := by
      intro r hr
      have hlen := h r hr
      simp only [List.length_cons] at hlen
      omega
    have hu := ih hrest
    simp [substituteFrom, hi, hc, hu, Nat.add_assoc, Nat.add_comm 1]

theorem substituteFrom_nil (i : Nat) (text : List Char) : substituteFrom [] i text = text := by
  have hnone : ∀ r ∈ ([] : List Replacement), i + text.length ≤ r.start := by simp
  simpa [substituteFrom, inserted] using substituteFrom_append hnone []

variable {r : Replacement} {rs : List Replacement}

/-- A replacement does nothing behind its end. -/
theorem substituteFrom_passed {i : Nat} (hstart : r.start < i) (hstop : r.stop ≤ i)
    (text : List Char) : substituteFrom (r :: rs) i text = substituteFrom rs i text := by
  have hi {j : Nat} (hj : i ≤ j) : inserted (r :: rs) j = inserted rs j := by
    have : r.start ≠ j := by omega
    simp [inserted, this]
  induction text generalizing i with
  | nil => exact hi (Nat.le_refl i)
  | cons c text ih =>
    have hc : r.covers i = false := by
      simp [covers]
      omega
    have ht := ih (i := i + 1) (by omega) (by omega) fun hj => hi (by omega)
    simp [substituteFrom, hi (Nat.le_refl i), hc, ht]

/-- Inside a replaced part nothing of the text is left. -/
theorem substituteFrom_covered {u : List Char} {i : Nat} (hstart : r.start < i)
    (hstop : r.stop = i + u.length) (h : ∀ x ∈ rs, r.stop ≤ x.start) (v : List Char) :
    substituteFrom (r :: rs) i (u ++ v) = substituteFrom rs r.stop v := by
  induction u generalizing i with
  | nil =>
    obtain rfl : r.stop = i := by simpa using hstop
    exact substituteFrom_passed hstart (Nat.le_refl _) v
  | cons c u ih =>
    simp only [List.length_cons] at hstop
    have hi : inserted (r :: rs) i = [] := by
      apply inserted_eq_nil
      intro x hx he
      rcases List.mem_cons.mp hx with rfl | hx
      · omega
      · have := h x hx
        omega
    have hc : r.covers i = true := by
      simp [covers]
      omega
    have hu := ih (i := i + 1) (by omega) (by omega)
    simp [substituteFrom, hi, hc, hu]

/-- The first of several replacements, at its start. -/
theorem substituteFrom_first {u : List Char} (hstop : r.stop = r.start + u.length)
    (h : ∀ x ∈ rs, r.stop ≤ x.start) (v : List Char) :
    substituteFrom (r :: rs) r.start (u ++ v) = r.text ++ substituteFrom rs r.stop v := by
  have hi : inserted (r :: rs) r.start = r.text ++ inserted rs r.start := by simp [inserted]
  cases u with
  | nil =>
    obtain hs : r.stop = r.start := by simpa using hstop
    rw [hs]
    cases v with
    | nil => exact hi
    | cons c v =>
      have hc : r.covers r.start = false := by simp [covers, hs]
      have hv : substituteFrom (r :: rs) (r.start + 1) v = substituteFrom rs (r.start + 1) v :=
        substituteFrom_passed (by omega) (by omega) v
      simp [substituteFrom, hi, hc, hv]
  | cons c u =>
    simp only [List.length_cons] at hstop
    have hn : inserted rs r.start = [] := by
      apply inserted_eq_nil
      intro x hx he
      have := h x hx
      omega
    have hc : r.covers r.start = true := by
      simp [covers]
      omega
    have hu : substituteFrom (r :: rs) (r.start + 1) (u ++ v) = substituteFrom rs r.stop v :=
      substituteFrom_covered (by omega) (by omega) h v
    simp [substituteFrom, hi, hn, hc, hu]

/-- The first of several replacements, seen from any place before it. -/
theorem substituteFrom_cons {text : List Char} {i : Nat} (hi : i ≤ r.start)
    (hr : r.start ≤ r.stop) (hlen : r.stop ≤ text.length) (h : ∀ x ∈ rs, r.stop ≤ x.start) :
    text.take i ++ substituteFrom (r :: rs) i (text.drop i) =
      text.take r.start ++ r.text ++ substituteFrom rs r.stop (text.drop r.stop) := by
  let u := (text.drop i).take (r.start - i)
  let v := (text.drop r.start).take (r.stop - r.start)
  have hu : i + u.length = r.start := by
    simp only [u, List.length_take, List.length_drop]
    omega
  have hv : r.stop = r.start + v.length := by
    simp only [v, List.length_take, List.length_drop]
    omega
  have htake : text.take i ++ u = text.take r.start := by
    rw [← List.take_add, Nat.add_sub_cancel' hi]
  have hdrop : text.drop i = u ++ (v ++ text.drop r.stop) := by
    have hv' : v ++ text.drop r.stop = text.drop r.start := by
      rw [← List.take_append_drop (r.stop - r.start) (text.drop r.start), List.drop_drop,
        Nat.add_sub_cancel' hr]
    have hu' : (text.drop i).drop (r.start - i) = text.drop r.start := by
      rw [List.drop_drop, Nat.add_sub_cancel' hi]
    rw [hv', ← hu', List.take_append_drop]
  have hbefore : ∀ x ∈ r :: rs, i + u.length ≤ x.start := by
    intro x hx
    rcases List.mem_cons.mp hx with rfl | hx
    · omega
    · have := h x hx
      omega
  calc
    text.take i ++ substituteFrom (r :: rs) i (text.drop i) =
        text.take i ++ u ++ substituteFrom (r :: rs) r.start (v ++ text.drop r.stop) := by
      rw [hdrop, substituteFrom_append hbefore, hu, List.append_assoc]
    _ = text.take r.start ++ r.text ++ substituteFrom rs r.stop (text.drop r.stop) := by
      rw [htake, substituteFrom_first hv h, List.append_assoc]

theorem inserted_append (rs others : List Replacement) (i : Nat) :
    inserted (rs ++ others) i = inserted rs i ++ inserted others i := by
  simp [inserted]

/-- Replacements do nothing behind their ends. -/
theorem substituteFrom_append_passed {rs others : List Replacement} {i : Nat}
    (h : ∀ r ∈ rs, r.start < i ∧ r.stop ≤ i) (text : List Char) :
    substituteFrom (rs ++ others) i text = substituteFrom others i text := by
  induction rs with
  | nil => rfl
  | cons r rs ih =>
    obtain ⟨⟨hstart, hstop⟩, hrest⟩ := List.forall_mem_cons.mp h
    rw [List.cons_append, substituteFrom_passed hstart hstop, ih hrest]

/-- Replacements that end where a text begins only put something in before it. -/
theorem substituteFrom_append_ended {rs others : List Replacement} {i : Nat}
    (h : ∀ r ∈ rs, r.start ≤ r.stop ∧ r.stop ≤ i) (text : List Char) :
    substituteFrom (rs ++ others) i text = inserted rs i ++ substituteFrom others i text := by
  cases text with
  | nil => exact inserted_append rs others i
  | cons c text =>
    have hc : rs.any (·.covers i) = false := by
      simp only [List.any_eq_false, covers, Bool.and_eq_true, decide_eq_true_eq, not_and]
      intro r hr _
      have := h r hr
      omega
    have hpassed : ∀ r ∈ rs, r.start < i + 1 ∧ r.stop ≤ i + 1 := by
      intro r hr
      have := h r hr
      omega
    simp [substituteFrom, inserted_append, List.any_append, hc, substituteFrom_append_passed hpassed]

/-- Some replacements are in the first part of a text, and others in the second one. -/
theorem substituteFrom_append_append {rs others : List Replacement} {u : List Char} {i : Nat}
    (hr : ∀ r ∈ rs, r.start ≤ r.stop ∧ r.stop ≤ i + u.length)
    (ho : ∀ r ∈ others, i + u.length ≤ r.start) (v : List Char) :
    substituteFrom (rs ++ others) i (u ++ v) =
      substituteFrom rs i u ++ substituteFrom others (i + u.length) v := by
  induction u generalizing i with
  | nil => exact substituteFrom_append_ended hr v
  | cons c u ih =>
    simp only [List.length_cons] at hr ho
    have hi : inserted others i = [] := by
      apply inserted_eq_nil
      intro r hm
      have := ho r hm
      omega
    have hc : others.any (·.covers i) = false := by
      simp only [List.any_eq_false, covers, Bool.and_eq_true, decide_eq_true_eq, not_and]
      intro r hm _
      have := ho r hm
      omega
    have hrs : ∀ r ∈ rs, r.start ≤ r.stop ∧ r.stop ≤ i + 1 + u.length := by
      intro r hm
      have := hr r hm
      omega
    have hothers : ∀ r ∈ others, i + 1 + u.length ≤ r.start := by
      intro r hm
      have := ho r hm
      omega
    have hu := ih hrs hothers
    simp [substituteFrom, inserted_append, hi, List.any_append, hc, hu, Nat.add_assoc,
      Nat.add_comm 1]

/-- Only the order of replacements with the same start matters. -/
theorem substitute_congr {rs rs' : List Replacement}
    (hi : ∀ i, rs.filter (fun r => r.start = i) = rs'.filter (fun r => r.start = i))
    (text : List Char) : substitute rs text = substitute rs' text := by
  have hmem (r : Replacement) : r ∈ rs ↔ r ∈ rs' := by
    have := congrArg (r ∈ ·) (hi r.start)
    simpa using this
  have hc (i : Nat) : rs.any (·.covers i) = rs'.any (·.covers i) := by
    refine Bool.eq_iff_iff.mpr ?_
    simp [hmem]
  have hs (i : Nat) : substituteFrom rs i text = substituteFrom rs' i text := by
    induction text generalizing i with
    | nil => simp [substituteFrom, inserted, hi]
    | cons c text ih => simp [substituteFrom, inserted, hi, hc, ih]
  exact hs 0

end Replacement
end Autocomplete

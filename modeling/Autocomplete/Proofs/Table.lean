import Autocomplete.Server
import Mathlib.Data.List.Sort

/-! Membership in finite maps: an entry is found under its key exactly if it is listed, and the order in
which keys are put in makes no difference. -/
namespace Autocomplete

variable {κ ν μ : Type}

namespace Entries

theorem mem_of_find? [DecidableEq κ] {k : κ} {v : ν} {entries : List (κ × ν)}
    (h : find? k entries = some v) : (k, v) ∈ entries := by
  induction entries with
  | nil => simp [find?] at h
  | cons e rest ih =>
    obtain ⟨j, w⟩ := e
    simp only [find?] at h
    split at h
    next hj =>
      cases h
      simp [hj]
    next => exact List.mem_cons_of_mem _ (ih h)

theorem Ascending.nodup_keys [LE κ] [LT κ] [Std.LawfulOrderLT κ] {entries : List (κ × ν)}
    (h : Ascending entries) : (entries.map (·.1)).Nodup :=
  List.pairwise_map.mpr (h.imp fun hlt => Std.ne_of_lt hlt)

theorem find?_of_mem_of_nodup [DecidableEq κ] {k : κ} {v : ν} {entries : List (κ × ν)}
    (hn : (entries.map (·.1)).Nodup) (h : (k, v) ∈ entries) : find? k entries = some v := by
  induction entries with
  | nil => simp at h
  | cons e rest ih =>
    obtain ⟨j, w⟩ := e
    obtain ⟨head, tail⟩ := List.nodup_cons.mp hn
    rcases List.mem_cons.mp h with h | h
    · cases h
      simp [find?]
    · have hj : j ≠ k := fun hj => head (hj ▸ List.mem_map_of_mem (f := (·.1)) h)
      simp [find?, hj, ih tail h]

theorem find?_of_mem [DecidableEq κ] [LE κ] [LT κ] [Std.LawfulOrderLT κ] {k : κ} {v : ν}
    {entries : List (κ × ν)} (ha : Ascending entries) (h : (k, v) ∈ entries) :
    find? k entries = some v :=
  find?_of_mem_of_nodup ha.nodup_keys h

section
variable [DecidableEq κ] [LT κ] [DecidableLT κ]

theorem insert_cons_of_not_lt {i k : κ} (hne : i ≠ k) (h : ¬ k < i) (u v : ν)
    (rest : List (κ × ν)) : insert k v ((i, u) :: rest) = (i, u) :: insert k v rest := by
  simp [insert, hne, h]

variable [LE κ] [Std.LawfulOrderLT κ]

theorem insert_cons_of_lt {i k : κ} (h : k < i) (u v : ν) (rest : List (κ × ν)) :
    insert k v ((i, u) :: rest) = (k, v) :: (i, u) :: rest := by
  have hne : i ≠ k := fun he => Std.lt_irrefl (he ▸ h)
  simp [insert, hne, h]

/-- Keys that are new to a list can be put in one after the other in any order. -/
theorem insert_comm [Std.IsLinearOrder κ] {j k : κ} (hne : j ≠ k) (v w : ν)
    {entries : List (κ × ν)} (hj : find? j entries = none) (hk : find? k entries = none) :
    insert k w (insert j v entries) = insert j v (insert k w entries) := by
  -- It is enough to look at keys in one order.
  wlog hlt : j < k generalizing j k v w with sym
  · exact (sym hne.symm w v hk hj (Std.lt_of_le_of_ne (Std.not_lt.mp hlt) hne.symm)).symm
  have hkj : ¬ k < j := fun h => Std.lt_irrefl (Std.lt_trans hlt h)
  induction entries with
  | nil => rw [insert, insert, insert_cons_of_not_lt hne hkj, insert_cons_of_lt hlt, insert]
  | cons e rest ih =>
    obtain ⟨i, u⟩ := e
    have hij : i ≠ j := fun h => by simp [find?, h] at hj
    have hik : i ≠ k := fun h => by simp [find?, h] at hk
    have hjr : find? j rest = none := by simpa [find?, hij] using hj
    have hkr : find? k rest = none := by simpa [find?, hik] using hk
    by_cases hji : j < i
    · rw [insert_cons_of_lt hji, insert_cons_of_not_lt hne hkj]
      by_cases hki : k < i
      · rw [insert_cons_of_lt hki, insert_cons_of_lt hlt]
      · rw [insert_cons_of_not_lt hik hki, insert_cons_of_lt hji]
    · have hki : ¬ k < i := fun h => hji (Std.lt_trans hlt h)
      rw [insert_cons_of_not_lt hij hji, insert_cons_of_not_lt hik hki,
        insert_cons_of_not_lt hik hki, insert_cons_of_not_lt hij hji, ih hjr hkr]

end

end Entries

namespace Table

theorem find?_of_erase [DecidableEq κ] [LT κ] {t : Table κ ν} {k j : κ} {v : ν}
    (h : (t.erase k).find? j = some v) : t.find? j = some v := by
  rw [find?_erase] at h
  split at h
  · cases h
  · exact h

/-- Changes all values of a map. -/
def map [LT κ] (f : ν → μ) (t : Table κ ν) : Table κ μ where
  entries := t.entries.map fun e => (e.1, f e.2)
  ascending := by simpa [Entries.Ascending, List.pairwise_map] using t.ascending

theorem find?_map [DecidableEq κ] [LT κ] (f : ν → μ) (t : Table κ ν) (k : κ) :
    (t.map f).find? k = (t.find? k).map f := by
  obtain ⟨entries, hentries⟩ := t
  induction entries with
  | nil => rfl
  | cons e rest ih =>
    have htail := ih (List.pairwise_cons.mp hentries).2
    by_cases he : e.1 = k
    · simp [map, find?, Entries.find?, he]
    · simpa [map, find?, Entries.find?, he] using htail

theorem nodup_keys [LE κ] [LT κ] [Std.LawfulOrderLT κ] (t : Table κ ν) : t.keys.Nodup :=
  t.ascending.nodup_keys

section
variable [DecidableEq κ] [LE κ] [LT κ] [Std.LawfulOrderLT κ]

theorem find?_eq_some_iff (t : Table κ ν) (k : κ) (v : ν) :
    t.find? k = some v ↔ (k, v) ∈ t.entries :=
  ⟨Entries.mem_of_find?, Entries.find?_of_mem t.ascending⟩

theorem mem_values_iff (t : Table κ ν) (v : ν) : v ∈ t.values ↔ ∃ k, t.find? k = some v := by
  simp [values, find?_eq_some_iff]

theorem mem_keys_iff (t : Table κ ν) (k : κ) : k ∈ t.keys ↔ ∃ v, t.find? k = some v := by
  simp [keys, find?_eq_some_iff]

theorem erase_eq_self {t : Table κ ν} {k : κ} (h : t.find? k = none) : t.erase k = t := by
  refine ext (List.filter_eq_self.mpr fun e he => decide_eq_true fun hk => ?_)
  have hf := (find?_eq_some_iff t e.1 e.2).mpr he
  rw [hk, h] at hf
  cases hf

theorem isEmpty_iff (t : Table κ ν) : t.isEmpty = true ↔ ∀ k, t.find? k = none := by
  constructor
  · intro h k
    have he : t.entries = [] := List.isEmpty_iff.mp h
    simp [find?, he, Entries.find?]
  · intro h
    refine List.isEmpty_iff.mpr (List.eq_nil_iff_forall_not_mem.mpr fun e he => ?_)
    have hf := (find?_eq_some_iff t e.1 e.2).mpr he
    rw [h] at hf
    contradiction

end

section
variable [DecidableEq κ] [LE κ] [LT κ] [Std.IsLinearOrder κ] [Std.LawfulOrderLT κ]

/-- Maps that hold the same values are equal. -/
theorem ext_find? {s t : Table κ ν} (h : ∀ k, s.find? k = t.find? k) : s = t := by
  let below (a b : κ × ν) : Prop := a.1 < b.1
  have hasymm (a b : κ × ν) (hab : below a b) (hba : below b a) : False :=
    Std.lt_irrefl (Std.lt_trans hab hba)
  have : Std.Irrefl below := ⟨fun a ha => hasymm a a ha ha⟩
  have : Std.Antisymm below := ⟨fun a b hab hba => (hasymm a b hab hba).elim⟩
  have hs : s.entries.Pairwise below := s.ascending
  apply ext
  apply hs.eq_of_mem_iff t.ascending
  intro e
  rw [← find?_eq_some_iff s e.1 e.2, ← find?_eq_some_iff t e.1 e.2, h]

theorem map_erase (f : ν → μ) (t : Table κ ν) (k : κ) : (t.erase k).map f = (t.map f).erase k := by
  apply ext_find?
  intro j
  rw [find?_map, find?_erase, find?_erase, find?_map]
  split <;> rfl

theorem erase_comm (t : Table κ ν) (j k : κ) : (t.erase j).erase k = (t.erase k).erase j := by
  apply ext_find?
  intro i
  simp only [find?_erase]
  split
  · simp
  · rfl

end

section
variable [DecidableEq κ] [LE κ] [LT κ] [DecidableLT κ] [Std.IsLinearOrder κ]
  [Std.LawfulOrderLT κ]

theorem insert_comm (t : Table κ ν) {j k : κ} (hne : j ≠ k) (v w : ν) :
    (t.insert j v).insert k w = (t.insert k w).insert j v := by
  apply ext_find?
  intro i
  simp only [find?_insert]
  split
  next hk => rw [if_neg fun hj => hne (hj.trans hk.symm)]
  next => rfl

theorem map_insert (f : ν → μ) (t : Table κ ν) (k : κ) (v : ν) :
    (t.insert k v).map f = (t.map f).insert k (f v) := by
  apply ext_find?
  intro j
  rw [find?_map, find?_insert, find?_insert, find?_map]
  split <;> rfl

theorem find?_foldl_insert (pairs : List (κ × ν)) (t : Table κ ν) (k : κ) :
    (pairs.foldl (fun t e => t.insert e.1 e.2) t).find? k =
      ((pairs.reverse.find? fun e => e.1 = k).map (·.2)).or (t.find? k) := by
  induction pairs generalizing t with
  | nil => simp
  | cons e rest ih =>
    rw [List.foldl_cons, ih, find?_insert, List.reverse_cons, List.find?_append]
    by_cases he : e.1 = k <;> cases rest.reverse.find? _ <;> simp [he]

theorem mem_of_find?_ofList {pairs : List (κ × ν)} {k : κ} {v : ν}
    (h : (ofList pairs).find? k = some v) : (k, v) ∈ pairs := by
  rw [ofList, find?_foldl_insert, find?_empty, Option.or_none, Option.map_eq_some_iff] at h
  obtain ⟨⟨j, w⟩, hf, rfl⟩ := h
  have hj := List.find?_some hf
  have hm := List.mem_reverse.mp (List.mem_of_find?_eq_some hf)
  simp only [decide_eq_true_eq] at hj
  exact hj ▸ hm

/-- A list without repeated keys loses nothing when it becomes a map. -/
theorem find?_ofList {pairs : List (κ × ν)} (h : (pairs.map (·.1)).Nodup) (k : κ) (v : ν) :
    (ofList pairs).find? k = some v ↔ (k, v) ∈ pairs := by
  constructor
  · exact mem_of_find?_ofList
  · intro hm
    rw [ofList, find?_foldl_insert, find?_empty, Option.or_none, Option.map_eq_some_iff]
    cases hf : pairs.reverse.find? (fun e => decide (e.1 = k)) with
    | none =>
      have hn := List.find?_eq_none.mp hf (k, v) (List.mem_reverse.mpr hm)
      simp at hn
    | some e =>
      have hj := List.find?_some hf
      have he := List.mem_reverse.mp (List.mem_of_find?_eq_some hf)
      simp only [decide_eq_true_eq] at hj
      have : e = (k, v) := List.inj_on_of_nodup_map h he hm hj
      exact ⟨e, rfl, congrArg Prod.snd this⟩

end
end Table
end Autocomplete

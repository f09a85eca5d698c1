/-!
Finite maps kept as lists of pairs in ascending order of their keys, so that equal maps are equal
lists. `Entries` holds the operations on lists and `Table` adds the proof that the keys ascend.
-/
namespace Autocomplete

variable {κ ν : Type}

namespace Entries

/-- The value of the first pair with the key. -/
def find? [DecidableEq κ] (k : κ) : List (κ × ν) → Option ν
  | [] => none
  | (j, v) :: rest => if j = k then some v else find? k rest

/-- Replaces the value of a key, or puts the key in its place. -/
def insert [DecidableEq κ] [LT κ] [DecidableLT κ] (k : κ) (v : ν) : List (κ × ν) → List (κ × ν)
  | [] => [(k, v)]
  | (j, w) :: rest =>
    if j = k then (k, v) :: rest
    else if k < j then (k, v) :: (j, w) :: rest
    else (j, w) :: insert k v rest

def erase [DecidableEq κ] (k : κ) (entries : List (κ × ν)) : List (κ × ν) :=
  entries.filter fun e => decide (e.1 ≠ k)

def contains [DecidableEq κ] (k : κ) (entries : List (κ × ν)) : Bool := (find? k entries).isSome

/-- Every key is below the keys after it. -/
def Ascending [LT κ] (entries : List (κ × ν)) : Prop := entries.Pairwise fun a b => a.1 < b.1

theorem find?_erase [DecidableEq κ] (k j : κ) (entries : List (κ × ν)) :
    find? j (erase k entries) = if k = j then none else find? j entries := by
  induction entries with
  | nil => simp [erase, find?]
  | cons e rest ih =>
    obtain ⟨i, w⟩ := e
    have step : erase k ((i, w) :: rest) =
        if i = k then erase k rest else (i, w) :: erase k rest := by
      by_cases h : i = k <;> simp [erase, h]
    rw [step]
    by_cases hi : i = k
    · subst hi
      by_cases hj : i = j <;> simp_all [find?]
    · by_cases hj : i = j
      · subst hj
        simp [find?, hi, Ne.symm hi]
      · simp [find?, hi, hj, ih]

theorem ascending_erase [DecidableEq κ] [LT κ] {entries : List (κ × ν)} (h : Ascending entries) (k : κ) :
    Ascending (erase k entries) := h.filter _

section
variable [DecidableEq κ] [LT κ] [DecidableLT κ]

theorem find?_insert (k j : κ) (v : ν) (entries : List (κ × ν)) :
    find? j (insert k v entries) = if k = j then some v else find? j entries := by
  induction entries with
  | nil => rfl
  | cons e rest ih =>
    obtain ⟨i, w⟩ := e
    by_cases hi : i = k
    · subst hi
      by_cases hj : i = j <;> simp [insert, find?, hj]
    · by_cases hk : k < i
      · simp [insert, find?, hi, hk]
      · by_cases hj : i = j
        · subst hj
          simp [insert, find?, hi, hk, Ne.symm hi]
        · simp [insert, find?, hi, hk, hj, ih]

theorem mem_insert {k : κ} {v : ν} {e : κ × ν} {entries : List (κ × ν)}
    (h : e ∈ insert k v entries) : e = (k, v) ∨ e ∈ entries := by
  induction entries with
  | nil => simpa [insert] using h
  | cons d rest ih =>
    obtain ⟨i, w⟩ := d
    simp only [insert] at h
    split at h
    · rcases List.mem_cons.1 h with h | h
      · exact .inl h
      · exact .inr (List.mem_cons_of_mem _ h)
    · split at h
      · rcases List.mem_cons.1 h with h | h
        · exact .inl h
        · exact .inr h
      · rcases List.mem_cons.1 h with h | h
        · exact .inr (h ▸ List.mem_cons_self)
        · exact (ih h).imp_right (List.mem_cons_of_mem _)

theorem ascending_insert [LE κ] [Std.IsLinearOrder κ] [Std.LawfulOrderLT κ]
    {entries : List (κ × ν)} (h : Ascending entries) (k : κ) (v : ν) :
    Ascending (insert k v entries) := by
  induction entries with
  | nil => simp [Ascending, insert]
  | cons e rest ih =>
    obtain ⟨i, w⟩ := e
    obtain ⟨head, tail⟩ := List.pairwise_cons.1 h
    simp only [insert]
    split
    · next hi => subst hi; exact List.pairwise_cons.2 ⟨head, tail⟩
    · next hi =>
      split
      · next hk =>
        refine List.pairwise_cons.2 ⟨fun a ha => ?_, h⟩
        rcases List.mem_cons.1 ha with rfl | ha
        · exact hk
        · exact Std.lt_trans hk (head a ha)
      · next hk =>
        have hik : i < k := Std.lt_of_le_of_ne (Std.not_lt.1 hk) hi
        refine List.pairwise_cons.2 ⟨fun a ha => ?_, ih tail⟩
        rcases mem_insert ha with rfl | ha
        · exact hik
        · exact head a ha

end
end Entries

/-- A finite map. -/
structure Table (κ ν : Type) [LT κ] where
  entries : List (κ × ν)
  ascending : Entries.Ascending entries

namespace Table

def empty [LT κ] : Table κ ν := ⟨[], List.Pairwise.nil⟩

instance [LT κ] : Inhabited (Table κ ν) := ⟨empty⟩

theorem ext [LT κ] {s t : Table κ ν} (h : s.entries = t.entries) : s = t := by
  cases s; cases t; cases h; rfl

def isEmpty [LT κ] (t : Table κ ν) : Bool := t.entries.isEmpty

def size [LT κ] (t : Table κ ν) : Nat := t.entries.length

def keys [LT κ] (t : Table κ ν) : List κ := t.entries.map (·.1)

def values [LT κ] (t : Table κ ν) : List ν := t.entries.map (·.2)

def find? [DecidableEq κ] [LT κ] (t : Table κ ν) (k : κ) : Option ν := Entries.find? k t.entries

def contains [DecidableEq κ] [LT κ] (t : Table κ ν) (k : κ) : Bool := (t.find? k).isSome

def erase [DecidableEq κ] [LT κ] (t : Table κ ν) (k : κ) : Table κ ν :=
  ⟨Entries.erase k t.entries, Entries.ascending_erase t.ascending k⟩

@[simp] theorem find?_empty [DecidableEq κ] [LT κ] (k : κ) : (empty : Table κ ν).find? k = none := rfl

theorem find?_erase [DecidableEq κ] [LT κ] (t : Table κ ν) (k j : κ) :
    (t.erase k).find? j = if k = j then none else t.find? j :=
  Entries.find?_erase k j t.entries

section
variable [DecidableEq κ] [LE κ] [LT κ] [DecidableLT κ] [Std.IsLinearOrder κ] [Std.LawfulOrderLT κ]

def insert (t : Table κ ν) (k : κ) (v : ν) : Table κ ν :=
  ⟨Entries.insert k v t.entries, Entries.ascending_insert t.ascending k v⟩

/-- Of several values of one key the last remains. -/
def ofList (pairs : List (κ × ν)) : Table κ ν := pairs.foldl (fun t e => t.insert e.1 e.2) empty

theorem find?_insert (t : Table κ ν) (k j : κ) (v : ν) :
    (t.insert k v).find? j = if k = j then some v else t.find? j :=
  Entries.find?_insert k j v t.entries

end
end Table
end Autocomplete

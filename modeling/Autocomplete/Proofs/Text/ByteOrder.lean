import Mathlib.Order.Basic

/-! The order of texts by the bytes of their UTF-8 form is the one by their characters. A character
that is above another one has a greater byte at the first place where their bytes differ, and it does
so before either of them ends. -/
namespace Autocomplete.Text

/-- The bytes of a text in UTF-8. -/
def utf8 (text : String) : List UInt8 := text.toUTF8.data.toList

theorem utf8_eq_flatMap (text : String) :
    utf8 text = text.toList.flatMap String.utf8EncodeChar := by
  conv => lhs; rw [← String.ofList_toList (s := text)]
  rw [utf8, String.toUTF8_eq_toByteArray, String.toByteArray_ofList, List.utf8Encode,
    List.data_toByteArray]

theorem utf8EncodeChar_append_lt {c d : Char} (h : c < d) (s t : List UInt8) :
    String.utf8EncodeChar c ++ s < String.utf8EncodeChar d ++ t := by
  have hcd : c.val.toNat < d.val.toNat := h
  have hd : d.val.toNat < 1114112 := by
    have hv : d.toNat.isValidChar := d.valid
    unfold Nat.isValidChar at hv
    change d.toNat < 1114112
    omega
  simp only [String.utf8EncodeChar]
  generalize c.val.toNat = v at *
  generalize d.val.toNat = w at *
  have first {i j : Nat} {k l : List UInt8} (hi : i < j) (hj : j < 256) :
      UInt8.ofNat i :: k < UInt8.ofNat j :: l :=
    List.cons_lt_cons_iff.mpr (.inl ((UInt8.ofNat_lt_iff_lt (Nat.lt_trans hi hj) hj).mpr hi))
  have next {i j : Nat} {k l : List UInt8} (hi : i = j) (hk : k < l) :
      UInt8.ofNat i :: k < UInt8.ofNat j :: l :=
    List.cons_lt_cons_iff.mpr (.inr ⟨congrArg _ hi, hk⟩)
  -- The bytes behind the first one, if all that is before them is the same.
  have last (hq : v / 64 = w / 64) :
      UInt8.ofNat (v % 64 + 128) :: s < UInt8.ofNat (w % 64 + 128) :: t :=
    first (by omega) (by omega)
  have lastTwo (hq : v / 4096 = w / 4096) :
      UInt8.ofNat (v / 64 % 64 + 128) :: UInt8.ofNat (v % 64 + 128) :: s <
        UInt8.ofNat (w / 64 % 64 + 128) :: UInt8.ofNat (w % 64 + 128) :: t := by
    by_cases hr : v / 64 = w / 64
    · exact next (by omega) (last hr)
    · exact first (by omega) (by omega)
  have lastThree (hq : v / 262144 = w / 262144) :
      UInt8.ofNat (v / 4096 % 64 + 128) :: UInt8.ofNat (v / 64 % 64 + 128) ::
          UInt8.ofNat (v % 64 + 128) :: s <
        UInt8.ofNat (w / 4096 % 64 + 128) :: UInt8.ofNat (w / 64 % 64 + 128) ::
          UInt8.ofNat (w % 64 + 128) :: t := by
    by_cases hr : v / 4096 = w / 4096
    · exact next (by omega) (lastTwo hr)
    · exact first (by omega) (by omega)
  by_cases hv : v ≤ 127
  · rw [if_pos hv]
    split_ifs <;> exact first (by omega) (by omega)
  · rw [if_neg hv, if_neg (show ¬ w ≤ 127 by omega)]
    by_cases hv : v ≤ 2047
    · rw [if_pos hv]
      split_ifs with hw
      · by_cases hq : v / 64 = w / 64
        · exact next (by omega) (last hq)
        · exact first (by omega) (by omega)
      · exact first (by omega) (by omega)
      · exact first (by omega) (by omega)
    · rw [if_neg hv, if_neg (show ¬ w ≤ 2047 by omega)]
      by_cases hv : v ≤ 65535
      · rw [if_pos hv]
        split_ifs with hw
        · by_cases hq : v / 4096 = w / 4096
          · exact next (by omega) (lastTwo hq)
          · exact first (by omega) (by omega)
        · exact first (by omega) (by omega)
      · rw [if_neg hv, if_neg (show ¬ w ≤ 65535 by omega)]
        by_cases hq : v / 262144 = w / 262144
        · exact next (by omega) (lastThree hq)
        · exact first (by omega) (by omega)

theorem flatMap_utf8EncodeChar_lt {a b : List Char} (h : a < b) :
    a.flatMap String.utf8EncodeChar < b.flatMap String.utf8EncodeChar := by
  induction h with
  | @nil c rest =>
    obtain ⟨byte, bytes, hc⟩ := List.exists_cons_of_ne_nil (String.utf8EncodeChar_ne_nil (c := c))
    rw [List.flatMap_cons, hc]
    exact List.nil_lt_cons _ _
  | cons _ ih => exact List.append_left_lt ih
  | rel hcd => exact utf8EncodeChar_append_lt hcd _ _

theorem utf8_lt_iff (a b : String) : utf8 a < utf8 b ↔ a < b := by
  have mono {a b : String} (h : a < b) : utf8 a < utf8 b := by
    rw [utf8_eq_flatMap, utf8_eq_flatMap]
    exact flatMap_utf8EncodeChar_lt (String.lt_iff.mp h)
  refine ⟨fun h => ?_, mono⟩
  rcases Std.lt_trichotomy a b with hlt | rfl | hgt
  · exact hlt
  · exact absurd h (List.lt_irrefl _)
  · exact absurd h (List.lt_asymm (mono hgt))

end Autocomplete.Text

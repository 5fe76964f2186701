import Mathlib.Data.List.Basic

/-!
# Fields with a separator between them

A text made of several fields determines its fields when they are joined by a character that
none of them contains. A number in decimal contains digits only, so it can be such a field.
-/

namespace Codec

variable {c : Char} {sep : String}

/-- Texts of fields without the separator agree on the fields. -/
theorem intercalate_inj {xs ys : List String} (h : sep.intercalate xs = sep.intercalate ys)
    (hsep : sep.toList = [c]) (hx : xs ≠ []) (hy : ys ≠ []) (hxs : ∀ x ∈ xs, c ∉ x.toList)
    (hys : ∀ y ∈ ys, c ∉ y.toList) : xs = ys := by
  have hsplit {l : List String} (hne : l ≠ []) (hl : ∀ x ∈ l, c ∉ x.toList) :
      (sep.intercalate l).toList.splitOn c = l.map String.toList := by
    rw [String.toList_intercalate, hsep]
    exact List.splitOn_intercalate c (by simpa using hl) (by simpa using hne)
  have hmap : xs.map String.toList = ys.map String.toList := by
    rw [← hsplit hx hxs, ← hsplit hy hys, h]
  exact List.map_injective_iff.mpr (fun _ _ => String.toList_inj.mp) hmap

theorem notMem_decimal (hc : c.isDigit = false) (n : Nat) : c ∉ Nat.toDigits 10 n := by
  intro hmem
  have hdigit := Nat.isDigit_of_mem_toDigits (by omega) (by omega) hmem
  rw [hc] at hdigit
  exact absurd hdigit Bool.false_ne_true

theorem decimal_injective : Function.Injective Nat.repr := by
  intro n m h
  rw [Nat.repr_eq_ofList_toDigits, Nat.repr_eq_ofList_toDigits, String.ofList_inj] at h
  -- reading the digits back
  have hread := congrArg (Nat.ofDigitChars 10 · 0) h
  simpa only [Nat.ofDigitChars_toDigits (by omega : 1 < 10) (by omega)] using hread

end Codec

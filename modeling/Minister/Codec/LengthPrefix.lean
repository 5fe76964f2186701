import Mathlib.Algebra.Group.Nat.Defs
import Mathlib.Data.List.Basic

/-!
# Length-prefixed fields

A message made of several variable-length fields determines its fields when each is
preceded by its length. The length takes two bytes, most significant first, so the
fields must be shorter than `2 ^ 16` bytes.
-/

namespace Codec

/-- The bytes of a string. -/
def utf8 (s : String) : List UInt8 := s.toByteArray.data.toList

theorem utf8_injective : Function.Injective utf8 := by
  intro s t h
  apply String.toByteArray_inj.mp
  apply ByteArray.ext
  exact Array.toList_inj.mp h

/-- Two bytes, most significant first. -/
def be16 (n : Nat) : List UInt8 := [UInt8.ofNat (n / 256), UInt8.ofNat (n % 256)]

theorem be16_inj {n m : Nat} (hn : n < 2 ^ 16) (hm : m < 2 ^ 16) (h : be16 n = be16 m) :
    n = m := by
  simp only [be16, List.cons.injEq, and_true] at h
  have hhigh := congrArg UInt8.toNat h.1
  have hlow := congrArg UInt8.toNat h.2
  simp only [UInt8.toNat_ofNat'] at hhigh hlow
  omega

/-- A field preceded by its length. -/
def lengthPrefix (xs : List UInt8) : List UInt8 := be16 xs.length ++ xs

/-- Messages that start with a length-prefixed field agree on the field and on the rest. -/
theorem lengthPrefix_append_inj {xs ys r s : List UInt8} (hx : xs.length < 2 ^ 16)
    (hy : ys.length < 2 ^ 16) (h : lengthPrefix xs ++ r = lengthPrefix ys ++ s) :
    xs = ys ∧ r = s := by
  unfold lengthPrefix at h
  rw [List.append_assoc, List.append_assoc] at h
  -- The two length bytes come first, so the fields have the same length.
  obtain ⟨hlen, hrest⟩ := List.append_inj h rfl
  exact List.append_inj hrest (be16_inj hx hy hlen)

/-- Several fields, each preceded by its length. -/
def fields (xs : List (List UInt8)) : List UInt8 := xs.flatMap lengthPrefix

theorem fields_inj {xs ys : List (List UInt8)} (hx : ∀ x ∈ xs, x.length ≤ 0xffff)
    (hy : ∀ y ∈ ys, y.length ≤ 0xffff) (h : fields xs = fields ys) : xs = ys := by
  induction xs generalizing ys with
  | nil =>
    cases ys with
    | nil => rfl
    | cons y ys => cases h
  | cons x xs ih =>
    cases ys with
    | nil => cases h
    | cons y ys =>
      obtain ⟨hx, hxs⟩ := List.forall_mem_cons.mp hx
      obtain ⟨hy, hys⟩ := List.forall_mem_cons.mp hy
      obtain ⟨rfl, hrest⟩ :=
        lengthPrefix_append_inj (Nat.lt_succ_of_le hx) (Nat.lt_succ_of_le hy) h
      rw [ih hxs hys hrest]

end Codec

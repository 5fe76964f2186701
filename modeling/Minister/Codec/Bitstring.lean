import Mathlib.Data.List.Basic
import Mathlib.Data.BitVec

/-!
# Strings of bits

Bytes hold a string of bits, eight to a byte, the most significant bit of a byte first. A bit beyond
the last byte is clear, and raising it does nothing.
-/

namespace Codec

abbrev Bytes := List (BitVec 8)

/-- The bit of a byte that an index stands for. -/
def bitMask (index : Nat) : BitVec 8 := 0x80#8 >>> (index % 8)

def testBit (bytes : Bytes) (index : Nat) : Bool :=
  bytes.getD (index / 8) 0 &&& bitMask index ≠ 0

def raiseBit (bytes : Bytes) (index : Nat) : Bytes :=
  bytes.set (index / 8) (bytes.getD (index / 8) 0 ||| bitMask index)

section Bits

variable {bytes bytes' : Bytes} {i j : Nat}

/-- A mask picks one bit of a byte. -/
theorem and_bitMask_ne_zero_iff (x : BitVec 8) :
    x &&& bitMask i ≠ 0 ↔ x.getLsbD (7 - i % 8) = true := by
  have hall : ∀ x : BitVec 8, ∀ a < 8, x &&& 0x80#8 >>> a ≠ 0 ↔ x.getLsbD (7 - a) = true := by
    decide +kernel
  exact hall x (i % 8) (Nat.mod_lt i (by decide))

theorem getLsbD_bitMask {k : Nat} : (bitMask i).getLsbD k = true ↔ k = 7 - i % 8 := by
  have hall : ∀ a < 8, ∀ k < 8, (0x80#8 >>> a).getLsbD k = true ↔ k = 7 - a := by decide
  by_cases hk : k < 8
  · exact hall (i % 8) (Nat.mod_lt i (by decide)) k hk
  · rw [BitVec.getLsbD_of_ge _ _ (by omega)]
    simp
    omega

theorem testBit_eq_true_iff :
    testBit bytes i = true ↔ (bytes.getD (i / 8) 0).getLsbD (7 - i % 8) = true := by
  rw [testBit, decide_eq_true_iff, and_bitMask_ne_zero_iff]

theorem testBit_replicate_zero (n : Nat) : testBit (List.replicate n 0) i = false := by
  have hbyte : (List.replicate n (0 : BitVec 8)).getD (i / 8) 0 = 0 := by
    rw [List.getD_eq_getElem?_getD, List.getElem?_replicate]
    split_ifs <;> rfl
  rw [testBit, hbyte]
  simp

/-- The byte that holds a bit, after a bit was raised. -/
theorem getD_raiseBit (q : Nat) : (raiseBit bytes i).getD q 0 =
    if i / 8 = q ∧ i / 8 < bytes.length then bytes.getD q 0 ||| bitMask i else bytes.getD q 0 := by
  rw [raiseBit, List.getD_eq_getElem?_getD, List.getElem?_set]
  by_cases hbyte : i / 8 = q
  · by_cases hlt : i / 8 < bytes.length
    · simp [hbyte, hbyte ▸ hlt]
    · simp [hbyte, hbyte ▸ hlt, List.getD_eq_getElem?_getD]
  · simp [hbyte, List.getD_eq_getElem?_getD]

/-- Only the bit that is raised can change. -/
theorem testBit_raiseBit : testBit (raiseBit bytes i) j = true ↔
    testBit bytes j = true ∨ j = i ∧ i / 8 < bytes.length := by
  rw [testBit_eq_true_iff, testBit_eq_true_iff, getD_raiseBit]
  split_ifs with hbyte
  · rw [BitVec.getLsbD_or, Bool.or_eq_true, getLsbD_bitMask]
    refine or_congr_right ⟨fun h => ⟨by omega, hbyte.2⟩, fun h => by rw [h.1]⟩
  · refine (or_iff_left fun h => hbyte ?_).symm
    exact ⟨by rw [h.1], h.2⟩

/-- The bits make up the bytes. -/
theorem eq_of_testBit_eq (hlength : bytes.length = bytes'.length)
    (h : ∀ i, i / 8 < bytes.length → testBit bytes i = testBit bytes' i) : bytes = bytes' := by
  refine List.ext_getElem hlength fun q hq hq' => BitVec.eq_of_getLsbD_eq fun k hk => ?_
  have hbit := h (8 * q + (7 - k)) (by omega)
  have hdiv : (8 * q + (7 - k)) / 8 = q := by omega
  have hmod : 7 - (8 * q + (7 - k)) % 8 = k := by omega
  rw [Bool.eq_iff_iff, testBit_eq_true_iff, testBit_eq_true_iff, hdiv, hmod,
    ← Bool.eq_iff_iff] at hbit
  simpa [List.getD_eq_getElem?_getD, hq, hq'] using hbit

end Bits

end Codec

import Mathlib.Data.Int.Log
import Mathlib.Data.Rat.Floor
import Minister.Codec.Separated

/-!
# Doubles

A program in JavaScript computes with doubles: the exact result of an operation is rounded to the
nearest number with a significand of 53 bits, and to the even one of two. A result that is too large
is not made infinite here. An integer is written with the fewest digits that are read back as the
same double, so that a large one may end in zeros that are not its own.
-/

namespace Codec

/-! ### Rounding -/

/-- The nearest integer, the even one of two. -/
def roundEven (q : ℚ) : ℤ :=
  if q - ⌊q⌋ < 1 / 2 ∨ q - ⌊q⌋ = 1 / 2 ∧ 2 ∣ ⌊q⌋ then ⌊q⌋ else ⌊q⌋ + 1

/-- The distance between the doubles around a number, as an exponent of two. -/
def ulpExponent (q : ℚ) : ℤ := max (Int.log 2 |q|) (-1022) - 52

/-- The double nearest to a number. -/
def nearest (q : ℚ) : ℚ := roundEven (q / 2 ^ ulpExponent q) * 2 ^ ulpExponent q

/-- A number that a double can be. -/
structure IsDouble (q : ℚ) : Prop where
  nearest_eq : nearest q = q
  abs_lt : |q| < 2 ^ 1024

instance : DecidablePred IsDouble := fun q =>
  decidable_of_iff (nearest q = q ∧ |q| < 2 ^ 1024) ⟨fun h => ⟨h.1, h.2⟩, fun h => ⟨h.1, h.2⟩⟩

theorem roundEven_le {q : ℚ} {n : ℤ} (h : q ≤ n) : roundEven q ≤ n := by
  have hfloor : ⌊q⌋ ≤ n := Int.floor_le_iff.mpr (h.trans_lt (lt_add_one _))
  unfold roundEven
  split_ifs with hdown
  · exact hfloor
  · -- the number is above its floor, so the bound is, too
    by_contra! hn
    obtain rfl : n = ⌊q⌋ := by omega
    exact hdown (.inl (by linarith))

theorem roundEven_intCast (n : ℤ) : roundEven n = n := by
  simp [roundEven]

/-- Rounding does not pass a double. -/
theorem nearest_le {q y : ℚ} (hy : IsDouble y) (h : q ≤ y) : nearest q ≤ y := by
  have hpos (e : ℤ) : (0 : ℚ) < 2 ^ e := zpow_pos two_pos e
  -- There is a multiple of the distance between the number and the double.
  suffices hn : ∃ n : ℤ, q ≤ n * 2 ^ ulpExponent q ∧ n * 2 ^ ulpExponent q ≤ y by
    obtain ⟨n, hlow, hhigh⟩ := hn
    refine le_trans ?_ hhigh
    exact mul_le_mul_of_nonneg_right
      (Int.cast_le.mpr (roundEven_le ((div_le_iff₀ (hpos _)).mpr hlow))) (hpos _).le
  by_cases hexp : ulpExponent q ≤ ulpExponent y
  · obtain ⟨k, hk⟩ := Int.le.dest hexp
    have hmul : y = (roundEven (y / 2 ^ ulpExponent y) * 2 ^ k : ℤ) * 2 ^ ulpExponent q := by
      push_cast
      rw [mul_assoc, ← zpow_natCast, ← zpow_add₀ two_ne_zero, add_comm, hk]
      exact hy.nearest_eq.symm
    exact ⟨_, hmul ▸ h, hmul.ge⟩
  · -- The double is closer to 0, so the number is below the power of two between them.
    have hlog : ulpExponent q = Int.log 2 |q| - 52 ∧ Int.log 2 |y| < Int.log 2 |q| := by
      unfold ulpExponent at hexp ⊢
      omega
    have hlt : |y| < 2 ^ Int.log 2 |q| :=
      (Int.lt_zpow_succ_log_self one_lt_two |y|).trans_le
        (zpow_le_zpow_right₀ one_le_two (by omega))
    rcases eq_or_ne q 0 with rfl | hne
    · exact ⟨0, by simp, by simpa using h⟩
    have hle : (2 : ℚ) ^ Int.log 2 |q| ≤ |q| := Int.zpow_log_le_self one_lt_two (abs_pos.mpr hne)
    have hneg : |q| = -q := abs_of_nonpos (by
      by_contra! hq
      have := abs_of_pos hq
      have := le_abs_self y
      linarith)
    have hpow : ((-2 ^ 52 : ℤ) : ℚ) * 2 ^ ulpExponent q = -2 ^ Int.log 2 |q| := by
      rw [hlog.1, zpow_sub₀ two_ne_zero]
      push_cast
      field_simp
    refine ⟨-2 ^ 52, ?_, ?_⟩
    · rw [hpow]
      linarith
    · rw [hpow]
      have := neg_abs_le y
      linarith

theorem roundEven_neg (q : ℚ) : roundEven (-q) = -roundEven q := by
  rcases eq_or_lt_of_le (Int.floor_le q) with hint | hlt
  · rw [← hint, ← Int.cast_neg, roundEven_intCast, roundEven_intCast]
  · have hfloor : ⌊-q⌋ = -⌊q⌋ - 1 := by
      rw [Int.floor_eq_iff]
      push_cast
      have := Int.lt_floor_add_one q
      constructor <;> linarith
    unfold roundEven
    rw [hfloor]
    push_cast
    split_ifs with h₁ h₂ h₂
    · -- both would be rounded down
      rcases h₁ with h₁ | ⟨h₁, hodd⟩ <;> rcases h₂ with h₂ | ⟨h₂, heven⟩ <;>
        first | linarith | omega
    · omega
    · omega
    · by_contra
      simp only [not_or, not_and, not_lt] at h₁ h₂
      have hhalf : q - ⌊q⌋ = 1 / 2 := by linarith [h₁.1, h₂.1]
      have := h₁.2 (by linarith)
      have := h₂.2 hhalf
      omega

theorem nearest_neg (q : ℚ) : nearest (-q) = -nearest q := by
  simp only [nearest, ulpExponent, abs_neg, neg_div, roundEven_neg, Int.cast_neg, neg_mul]

theorem IsDouble.neg {q : ℚ} (h : IsDouble q) : IsDouble (-q) :=
  ⟨by rw [nearest_neg, h.nearest_eq], (abs_neg q).symm ▸ h.abs_lt⟩

theorem le_nearest {q y : ℚ} (hy : IsDouble y) (h : y ≤ q) : y ≤ nearest q := by
  have hneg := nearest_le hy.neg (neg_le_neg h)
  rw [nearest_neg] at hneg
  exact neg_le_neg_iff.mp hneg

/-- An integer of 53 bits is a double. -/
theorem nearest_intCast {n : ℤ} (h : |n| < 2 ^ 53) : nearest n = n := by
  rcases eq_or_ne n 0 with rfl | hne
  · decide +kernel
  have hlog : Int.log 2 |(n : ℚ)| < 53 := by
    rw [← Int.lt_zpow_iff_log_lt one_lt_two (by positivity)]
    exact_mod_cast h
  have hexp : ulpExponent n ≤ 0 := by
    unfold ulpExponent
    omega
  obtain ⟨k, hk⟩ := Int.le.dest hexp
  have hmul : (n : ℚ) / 2 ^ ulpExponent n = (n * 2 ^ k : ℤ) := by
    rw [div_eq_iff (zpow_ne_zero _ two_ne_zero)]
    push_cast
    rw [mul_assoc, ← zpow_natCast, ← zpow_add₀ two_ne_zero, add_comm, hk, zpow_zero, mul_one]
  rw [nearest, hmul, roundEven_intCast, ← hmul, div_mul_cancel₀ _ (zpow_ne_zero _ two_ne_zero)]

theorem IsDouble.natAbs {x : ℤ} (h : IsDouble x) : IsDouble (x.natAbs : ℚ) := by
  rcases Int.natAbs_eq x with hx | hx
  · rwa [hx, Int.cast_natCast] at h
  · rw [hx] at h
    simpa using h.neg

/-! ### Integers as texts -/

/-- Digits with zeros after them. -/
structure Decimal where
  digits : ℕ
  zeros : ℕ

def Decimal.value (d : Decimal) : ℕ := d.digits * 10 ^ d.zeros

/-- The two numbers around `x` that end in these zeros, the closer one first and the even one if
neither is closer. -/
def around (x zeros : ℕ) : List Decimal :=
  let low := x / 10 ^ zeros
  let rest := 2 * (x % 10 ^ zeros)
  if 10 ^ zeros < rest ∨ 10 ^ zeros = rest ∧ low % 2 = 1 then [⟨low + 1, zeros⟩, ⟨low, zeros⟩]
  else [⟨low, zeros⟩, ⟨low + 1, zeros⟩]

/-- The fewest digits that are read as the double `x`. -/
def shortest (x : ℕ) : Decimal :=
  (((List.range (Nat.log 10 x + 2)).reverse.flatMap (around x)).find?
    fun d => nearest d.value = x).getD ⟨x, 0⟩

/-- The point stands after the first of several digits. -/
def withPoint : List Char → List Char
  | first :: next :: rest => first :: '.' :: next :: rest
  | ds => ds

/-- The exponent form, from `1e21` on. -/
def Decimal.exponentForm (d : Decimal) : List Char :=
  let ds := Nat.toDigits 10 d.digits
  withPoint ds ++ 'e' :: '+' :: Nat.toDigits 10 (ds.length - 1 + d.zeros)

def Decimal.text (d : Decimal) : List Char :=
  if d.value < 10 ^ 21 then Nat.toDigits 10 d.value else d.exponentForm

/-- `String(x)` of an integer. -/
def numberString (x : ℤ) : String :=
  String.ofList (if x < 0 then '-' :: (shortest x.natAbs).text else (shortest x.natAbs).text)

section Texts

variable {d d' : Decimal} {c : Char} {ds : List Char}

theorem toDigits_inj {n m : ℕ} (h : Nat.toDigits 10 n = Nat.toDigits 10 m) : n = m :=
  decimal_injective (by rw [Nat.repr_eq_ofList_toDigits, h, Nat.repr_eq_ofList_toDigits])

theorem filter_withPoint (h : '.' ∉ ds) : (withPoint ds).filter (· ≠ '.') = ds := by
  have hall : ds.filter (· ≠ '.') = ds := by
    rw [List.filter_eq_self]
    intro c hc
    exact decide_eq_true fun heq => h (heq ▸ hc)
  unfold withPoint
  split
  · simpa [List.filter_cons] using hall
  · exact hall

theorem notMem_withPoint (hpoint : c ≠ '.') (h : c ∉ ds) : c ∉ withPoint ds := by
  unfold withPoint
  split <;> simp_all

/-- The exponent form shows the digits and the zeros. -/
theorem exponentForm_inj (h : d.exponentForm = d'.exponentForm) : d.value = d'.value := by
  have he (n : ℕ) : 'e' ∉ withPoint (Nat.toDigits 10 n) :=
    notMem_withPoint (by decide) (notMem_decimal (by decide) n)
  have he' (n : ℕ) : 'e' ∉ '+' :: Nat.toDigits 10 n :=
    List.not_mem_cons_of_ne_of_not_mem (by decide) (notMem_decimal (by decide) n)
  obtain ⟨hmant, -, hexp⟩ := (List.append_cons_inj_of_notMem (he _) (he' _)).mp h
  have hdigits := congrArg (List.filter (· ≠ '.')) hmant
  rw [filter_withPoint (notMem_decimal (by decide) _),
    filter_withPoint (notMem_decimal (by decide) _)] at hdigits
  have hzeros := toDigits_inj (List.cons.inj hexp).2
  rw [hdigits] at hzeros
  unfold Decimal.value
  rw [toDigits_inj hdigits, Nat.add_left_cancel hzeros]

/-- The text of the digits determines the number that they write. -/
theorem text_inj (h : d.text = d'.text) : d.value = d'.value := by
  have he (d : Decimal) : 'e' ∈ d.exponentForm :=
    List.mem_append_right _ List.mem_cons_self
  have hmixed {d d' : Decimal} : Nat.toDigits 10 d.value ≠ d'.exponentForm := by
    intro heq
    exact notMem_decimal (by decide) d.value (heq ▸ he d')
  unfold Decimal.text at h
  split_ifs at h
  · exact toDigits_inj h
  · exact absurd h hmixed
  · exact absurd h.symm hmixed
  · exact exponentForm_inj h

theorem minus_notMem_text (d : Decimal) : '-' ∉ d.text := by
  have hdigits (n : ℕ) : '-' ∉ Nat.toDigits 10 n := notMem_decimal (by decide) n
  unfold Decimal.text
  split_ifs
  · exact hdigits _
  · intro hmem
    rcases List.mem_append.mp hmem with hmant | hexp
    · exact notMem_withPoint (by decide) (hdigits _) hmant
    · simp [hdigits] at hexp

/-- The digits that are written are read as the double. -/
theorem nearest_shortest {x : ℕ} (hx : nearest x = x) : nearest (shortest x).value = x := by
  unfold shortest
  cases hfind : List.find? (fun d : Decimal => decide (nearest d.value = x))
      ((List.range (Nat.log 10 x + 2)).reverse.flatMap (around x)) with
  | none => simpa [Decimal.value] using hx
  | some d => simpa using List.find?_some hfind

/-- Different integers that are doubles are written differently. -/
theorem numberString_inj {x y : ℤ} (hx : IsDouble x) (hy : IsDouble y)
    (h : numberString x = numberString y) : x = y := by
  have hread {x y : ℤ} (hx : IsDouble x) (hy : IsDouble y)
      (h : (shortest x.natAbs).text = (shortest y.natAbs).text) : x.natAbs = y.natAbs := by
    have hvalue : ((shortest x.natAbs).value : ℚ) = (shortest y.natAbs).value :=
      congrArg _ (text_inj h)
    rw [← Nat.cast_inj (R := ℚ), ← nearest_shortest hx.natAbs.nearest_eq, hvalue,
      nearest_shortest hy.natAbs.nearest_eq]
  have hmixed {d d' : Decimal} : '-' :: d.text ≠ d'.text := by
    intro heq
    exact minus_notMem_text d' (heq ▸ List.mem_cons_self)
  unfold numberString at h
  rw [String.ofList_inj] at h
  split_ifs at h
  · have habs := hread hx hy (List.cons.inj h).2
    omega
  · exact absurd h hmixed
  · exact absurd h.symm hmixed
  · have habs := hread hx hy h
    omega

end Texts

end Codec

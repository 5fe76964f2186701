import Minister.Codec.Double
import Minister.Codec.Json
import Minister.Schema

/-!
# The issuance month of a credential

`issuanceMonthOf` takes the seconds of an `iat` to the UTC month they lie in. It makes a `Date` of
them, which rounds the milliseconds to a double and then to the whole one nearer to 1970, and keeps
the first seven characters of `toISOString`. For the years from 0 to 9999 these are the year and the
month. Other years are written with a sign and six digits, and the month is cut off.
`issuanceMonthStartSeconds` takes an instant to the first instant of its month.
-/

namespace Minister.Vc

open Codec

/-! ### The calendar -/

structure YearMonth where
  year : Int
  month : Nat
  deriving DecidableEq, Repr

/-- The day of the year that starts on the first of March, from the day of a 400-year cycle. -/
def dayOfYear (dayOfEra : Int) : Int × Int :=
  let yearOfEra :=
    (dayOfEra - dayOfEra / 1460 + dayOfEra / 36524 - dayOfEra / 146096) / 365
  (yearOfEra, dayOfEra - (365 * yearOfEra + yearOfEra / 4 - yearOfEra / 100))

/-- The UTC month of a day counted from the start of 1970. -/
def yearMonth (day : Int) : YearMonth :=
  let shifted := day + 719468
  let (yearOfEra, doy) := dayOfYear (shifted % 146097)
  -- Months are counted from March; January and February belong to the next year.
  let fromMarch := (5 * doy + 2) / 153
  let month := if fromMarch < 10 then fromMarch + 3 else fromMarch - 9
  { year := yearOfEra + shifted / 146097 * 400 + if month ≤ 2 then 1 else 0
    month := month.toNat }

/-! ### Years and days of a cycle -/

/-- The days of a cycle before one of its years. -/
def yearStart (yearOfEra : Int) : Int := 365 * yearOfEra + yearOfEra / 4 - yearOfEra / 100

theorem dayOfYear_snd (doe : Int) : (dayOfYear doe).2 = doe - yearStart (dayOfYear doe).1 := rfl

/-- A later day is in no earlier year. Where the last quotient grows, so does the one before. -/
theorem dayOfYear_fst_mono {a b : Int} (h : a ≤ b) : (dayOfYear a).1 ≤ (dayOfYear b).1 := by
  have hstep (n : Int) : n - n / 1460 + n / 36524 - n / 146096 ≤
      (n + 1) - (n + 1) / 1460 + (n + 1) / 36524 - (n + 1) / 146096 := by
    have hcycle : (n + 1) / 146096 = n / 146096 ∨ (n + 1) / 36524 = n / 36524 + 1 := by omega
    omega
  have hmono : Monotone fun doe : Int => (dayOfYear doe).1 :=
    monotone_int_of_le_succ fun n => Int.ediv_le_ediv (by decide) (hstep n)
  exact hmono h

/-- The first day of a year, and the day before the next one. -/
theorem dayOfYear_fst_yearStart {y : Int} (h₀ : 0 ≤ y) (h₁ : y < 400) :
    (dayOfYear (yearStart y)).1 = y ∧ (dayOfYear (yearStart (y + 1) - 1)).1 = y := by
  have hall : ∀ n < 400, (dayOfYear (yearStart (n : Nat))).1 = n ∧
      (dayOfYear (yearStart (n + 1 : Nat) - 1)).1 = n := by decide +kernel
  lift y to Nat using h₀
  exact_mod_cast hall y (by omega)

theorem dayOfYear_bounds {doe : Int} (h₀ : 0 ≤ doe) (h₁ : doe < 146097) :
    0 ≤ (dayOfYear doe).1 ∧ (dayOfYear doe).1 ≤ 399 ∧
      0 ≤ (dayOfYear doe).2 ∧ (dayOfYear doe).2 ≤ 365 := by
  have hyear : 0 ≤ (dayOfYear doe).1 ∧ (dayOfYear doe).1 ≤ 399 := by
    unfold dayOfYear
    dsimp only
    omega
  rw [dayOfYear_snd]
  refine ⟨hyear.1, hyear.2, ?_, ?_⟩
  · by_contra hneg
    -- the day would be in the year before
    have hmono := dayOfYear_fst_mono
      (show doe ≤ yearStart ((dayOfYear doe).1 - 1 + 1) - 1 by rw [sub_add_cancel]; omega)
    have hprev : 0 ≤ (dayOfYear doe).1 - 1 := by
      by_contra h
      have h0 : (dayOfYear doe).1 = 0 := by omega
      rw [h0] at hneg
      simp only [yearStart] at hneg
      omega
    have := (dayOfYear_fst_yearStart hprev (by omega)).2
    omega
  · by_contra hlong
    have hnext : (dayOfYear doe).1 + 1 < 400 := by
      by_contra h
      have h0 : (dayOfYear doe).1 = 399 := by omega
      rw [h0] at hlong
      simp only [yearStart] at hlong
      omega
    -- it would be in the year after
    have hmono := dayOfYear_fst_mono
      (show yearStart ((dayOfYear doe).1 + 1) ≤ doe by simp only [yearStart] at *; omega)
    have := (dayOfYear_fst_yearStart (by omega) hnext).1
    omega

theorem dayOfYear_add {y d : Int} (h₀ : 0 ≤ y) (h₁ : y < 400) (hd₀ : 0 ≤ d) (hd₁ : d ≤ 364) :
    dayOfYear (yearStart y + d) = (y, d) := by
  have hfst : (dayOfYear (yearStart y + d)).1 = y := by
    have hlow := dayOfYear_fst_mono (show yearStart y ≤ yearStart y + d by omega)
    have hhigh := dayOfYear_fst_mono
      (show yearStart y + d ≤ yearStart (y + 1) - 1 by simp only [yearStart]; omega)
    obtain ⟨hs, he⟩ := dayOfYear_fst_yearStart h₀ h₁
    omega
  refine Prod.ext hfst ?_
  rw [dayOfYear_snd, hfst]
  dsimp only
  omega

theorem yearStart_bounds {y : Int} (h₀ : 0 ≤ y) (h₁ : y < 400) :
    0 ≤ yearStart y ∧ yearStart y ≤ 145731 := by
  unfold yearStart
  omega

/-! ### Months -/

/-- The first day of a month, counted from the start of 1970. -/
def firstDay (m : YearMonth) : Int :=
  -- Years are counted from March here too.
  let year := if m.month ≤ 2 then m.year - 1 else m.year
  let fromMarch : Int := if m.month ≤ 2 then m.month + 9 else m.month - 3
  year / 400 * 146097 + yearStart (year % 400) + (153 * fromMarch + 2) / 5 - 719468

/-- A month by its year and number counted from March. -/
def marchMonth (year fromMarch : Int) : YearMonth :=
  let month := if fromMarch < 10 then fromMarch + 3 else fromMarch - 9
  { year := year + if month ≤ 2 then 1 else 0
    month := month.toNat }

theorem yearMonth_eq_marchMonth {era y d doe : Int} (hdoe₀ : 0 ≤ doe) (hdoe₁ : doe < 146097)
    (hparts : dayOfYear doe = (y, d)) :
    yearMonth (era * 146097 + doe - 719468) = marchMonth (era * 400 + y) ((5 * d + 2) / 153) := by
  have hshift : era * 146097 + doe - 719468 + 719468 = doe + era * 146097 := by ring
  have hmod : (doe + era * 146097) % 146097 = doe := by
    rw [Int.add_mul_emod_self_right]
    exact Int.emod_eq_of_lt hdoe₀ hdoe₁
  have hdiv : (doe + era * 146097) / 146097 = era := by omega
  simp only [yearMonth, marchMonth, hshift, hmod, hdiv, hparts, add_comm y]

theorem firstDay_marchMonth {era y fromMarch : Int} (h₀ : 0 ≤ y) (h₁ : y < 400)
    (hm₀ : 0 ≤ fromMarch) (hm₁ : fromMarch ≤ 11) :
    firstDay (marchMonth (era * 400 + y) fromMarch) =
      era * 146097 + (yearStart y + (153 * fromMarch + 2) / 5) - 719468 := by
  have hdiv : (era * 400 + y) / 400 = era := by omega
  have hmod : (era * 400 + y) % 400 = y := by omega
  have hyear : (if (marchMonth (era * 400 + y) fromMarch).month ≤ 2 then
      (marchMonth (era * 400 + y) fromMarch).year - 1
      else (marchMonth (era * 400 + y) fromMarch).year) = era * 400 + y := by
    unfold marchMonth
    dsimp only
    split_ifs <;> omega
  have hmonth : (if (marchMonth (era * 400 + y) fromMarch).month ≤ 2 then
      ((marchMonth (era * 400 + y) fromMarch).month : Int) + 9
      else (marchMonth (era * 400 + y) fromMarch).month - 3) = fromMarch := by
    unfold marchMonth
    dsimp only
    split_ifs <;> omega
  unfold firstDay
  dsimp only
  rw [hyear, hmonth, hdiv, hmod]
  ring

/-- Every month is of this form. -/
theorem exists_marchMonth {m : YearMonth} (h₁ : 1 ≤ m.month) (h₁₂ : m.month ≤ 12) :
    ∃ era y fromMarch : Int, 0 ≤ y ∧ y < 400 ∧ 0 ≤ fromMarch ∧ fromMarch ≤ 11 ∧
      m = marchMonth (era * 400 + y) fromMarch := by
  obtain ⟨year, month⟩ := m
  dsimp only at h₁ h₁₂
  by_cases hjan : month ≤ 2
  · refine ⟨(year - 1) / 400, (year - 1) % 400, month + 9, by omega, by omega, by omega, by omega,
      ?_⟩
    simp only [marchMonth, YearMonth.mk.injEq]
    constructor <;> split_ifs <;> omega
  · refine ⟨year / 400, year % 400, month - 3, by omega, by omega, by omega, by omega, ?_⟩
    simp only [marchMonth, YearMonth.mk.injEq]
    constructor <;> split_ifs <;> omega

/-- The first day of a month is in the month. -/
theorem yearMonth_firstDay {m : YearMonth} (hlow : 1 ≤ m.month) (hhigh : m.month ≤ 12) :
    yearMonth (firstDay m) = m := by
  obtain ⟨era, y, fromMarch, h₀, h₁, hm₀, hm₁, rfl⟩ := exists_marchMonth hlow hhigh
  have hbounds := yearStart_bounds h₀ h₁
  rw [firstDay_marchMonth h₀ h₁ hm₀ hm₁, yearMonth_eq_marchMonth (by omega) (by omega)
    (dayOfYear_add h₀ h₁ (by omega) (by omega))]
  congr 1
  omega

/-- What a day is in its cycle. -/
theorem exists_dayOfYear (day : Int) : ∃ era y d doe : Int, day = era * 146097 + doe - 719468 ∧
    0 ≤ doe ∧ doe < 146097 ∧ dayOfYear doe = (y, d) ∧ doe = yearStart y + d ∧
      0 ≤ y ∧ y < 400 ∧ 0 ≤ d ∧ d ≤ 365 := by
  have h₀ := Int.emod_nonneg (day + 719468) (b := 146097) (by decide)
  have h₁ := Int.emod_lt_of_pos (day + 719468) (b := 146097) (by decide)
  obtain ⟨hy₀, hy₁, hd₀, hd₁⟩ := dayOfYear_bounds h₀ h₁
  have hd := dayOfYear_snd ((day + 719468) % 146097)
  exact ⟨(day + 719468) / 146097, _, _, _, by omega, h₀, h₁, Prod.mk.eta.symm, by omega, hy₀,
    by omega, hd₀, hd₁⟩

theorem yearMonth_month_bounds (day : Int) :
    1 ≤ (yearMonth day).month ∧ (yearMonth day).month ≤ 12 := by
  obtain ⟨era, y, d, doe, rfl, hdoe₀, hdoe₁, hparts, -, h₀, h₁, hd₀, hd₁⟩ := exists_dayOfYear day
  rw [yearMonth_eq_marchMonth hdoe₀ hdoe₁ hparts]
  unfold marchMonth
  dsimp only
  split_ifs <;> omega

/-- No day of a month is before its first. -/
theorem firstDay_yearMonth_le (day : Int) : firstDay (yearMonth day) ≤ day := by
  obtain ⟨era, y, d, doe, rfl, hdoe₀, hdoe₁, hparts, hd, h₀, h₁, hd₀, hd₁⟩ := exists_dayOfYear day
  rw [yearMonth_eq_marchMonth hdoe₀ hdoe₁ hparts,
    firstDay_marchMonth h₀ h₁ (by omega) (by omega)]
  omega

theorem yearMonth_month_lt (day : Int) : (yearMonth day).month < 100 := by
  have hbounds := yearMonth_month_bounds day
  omega

/-- The days a `Date` can name are in years of six digits. -/
theorem year_natAbs_lt {day : Int} (h₀ : -100000001 ≤ day) (h₁ : day ≤ 100000000) :
    (yearMonth day).year.natAbs < 1000000 := by
  have hdoe := dayOfYear_bounds (Int.emod_nonneg (day + 719468) (by decide))
    (Int.emod_lt_of_pos (day + 719468) (by decide))
  unfold yearMonth
  dsimp only
  split_ifs <;> omega

/-! ### Texts -/

/-- The last `w` decimal digits. -/
def digits : Nat → Nat → List Char
  | 0, _ => []
  | w + 1, n => digits w (n / 10) ++ [Nat.digitChar (n % 10)]

@[simp] theorem length_digits (w n : Nat) : (digits w n).length = w := by
  induction w generalizing n with
  | zero => rfl
  | succ w ih => simp [digits, ih]

theorem digitChar_inj {a b : Nat} (ha : a < 10) (hb : b < 10)
    (h : Nat.digitChar a = Nat.digitChar b) : a = b := by
  have hall : ∀ a < 10, ∀ b < 10, Nat.digitChar a = Nat.digitChar b → a = b := by decide
  exact hall a ha b hb h

/-- The digits determine a number that they write out. -/
theorem eq_of_digits {w n m : Nat} (hn : n < 10 ^ w) (hm : m < 10 ^ w)
    (h : digits w n = digits w m) : n = m := by
  induction w generalizing n m with
  | zero => omega
  | succ w ih =>
    obtain ⟨hrest, hlast⟩ := List.append_inj' h rfl
    have hdigit := digitChar_inj (Nat.mod_lt n (by decide)) (Nat.mod_lt m (by decide))
      (List.singleton_inj.mp hlast)
    rw [Nat.pow_succ] at hn hm
    have hrest' : n / 10 = m / 10 := ih (by omega) (by omega) hrest
    omega

/-- The year has four digits. -/
def FourDigits (year : Int) : Prop := 0 ≤ year ∧ year ≤ 9999

instance : DecidablePred FourDigits := fun year =>
  inferInstanceAs (Decidable (0 ≤ year ∧ year ≤ 9999))

/-- The year as `toISOString` writes it. -/
def isoYear (year : Int) : List Char :=
  if FourDigits year then digits 4 year.toNat
  else (if year < 0 then '-' else '+') :: digits 6 year.natAbs

/-- `toISOString` up to the month. -/
def isoMonth (m : YearMonth) : List Char := isoYear m.year ++ '-' :: digits 2 m.month

section Texts

variable {a b : YearMonth}

theorem isoMonth_of_fourDigits (h : FourDigits a.year) :
    isoMonth a = digits 4 a.year.toNat ++ '-' :: digits 2 a.month := by
  unfold isoMonth isoYear
  rw [if_pos h]

/-- Seven characters are the whole month. -/
theorem take_isoMonth_of_fourDigits (h : FourDigits a.year) : (isoMonth a).take 7 = isoMonth a := by
  rw [isoMonth_of_fourDigits h]
  apply List.take_of_length_le
  simp

/-- Seven characters are the sign and the year. -/
theorem take_isoMonth_of_not_fourDigits (h : ¬ FourDigits a.year) :
    (isoMonth a).take 7 = (if a.year < 0 then '-' else '+') :: digits 6 a.year.natAbs := by
  unfold isoMonth isoYear
  rw [if_neg h]
  apply List.take_left'
  simp

theorem length_take_isoMonth : ((isoMonth a).take 7).length = 7 := by
  by_cases h : FourDigits a.year
  · rw [take_isoMonth_of_fourDigits h, isoMonth_of_fourDigits h]
    simp
  · rw [take_isoMonth_of_not_fourDigits h]
    simp

theorem fourDigits_of_length (h : (isoMonth a).length = 7) : FourDigits a.year := by
  by_contra hnot
  unfold isoMonth isoYear at h
  rw [if_neg hnot] at h
  simp at h

theorem digitChar_ne_sign (n : Nat) :
    Nat.digitChar (n % 10) ≠ '-' ∧ Nat.digitChar (n % 10) ≠ '+' := by
  have hall : ∀ d < 10, Nat.digitChar d ≠ '-' ∧ Nat.digitChar d ≠ '+' := by decide
  exact hall (n % 10) (Nat.mod_lt n (by decide))

/-- A year of four digits starts with a digit, another one with a sign. -/
theorem take_isoMonth_ne (ha : FourDigits a.year) (hb : ¬ FourDigits b.year) :
    (isoMonth a).take 7 ≠ (isoMonth b).take 7 := by
  intro h
  rw [take_isoMonth_of_fourDigits ha, isoMonth_of_fourDigits ha,
    take_isoMonth_of_not_fourDigits hb] at h
  have hhead := congrArg List.head? h
  simp only [digits, List.nil_append, List.cons_append, List.head?_cons, Option.some.injEq] at hhead
  have hsign := digitChar_ne_sign (a.year.toNat / 10 / 10 / 10)
  split_ifs at hhead
  · exact hsign.1 hhead
  · exact hsign.2 hhead

/-- Two months have the same seven characters when they are the same month, or months of the
same year with more or fewer than four digits. -/
theorem take_isoMonth_inj (ham : a.month < 100) (hbm : b.month < 100)
    (hay : a.year.natAbs < 1000000) (hby : b.year.natAbs < 1000000) :
    (isoMonth a).take 7 = (isoMonth b).take 7 ↔
      a.year = b.year ∧ (a.month = b.month ∨ ¬ FourDigits a.year) := by
  by_cases ha : FourDigits a.year
  · by_cases hb : FourDigits b.year
    · rw [take_isoMonth_of_fourDigits ha, take_isoMonth_of_fourDigits hb,
        isoMonth_of_fourDigits ha, isoMonth_of_fourDigits hb]
      constructor
      · intro h
        obtain ⟨hyear, hmonth⟩ := List.append_inj h (by simp)
        unfold FourDigits at ha hb
        have hyear' := eq_of_digits (by omega) (by omega) hyear
        exact ⟨by omega, .inl (eq_of_digits ham hbm (List.cons.inj hmonth).2)⟩
      · rintro ⟨hyear, hmonth | hnot⟩
        · rw [hyear, hmonth]
        · exact absurd ha hnot
    · constructor
      · intro h
        exact absurd h (take_isoMonth_ne ha hb)
      · rintro ⟨hyear, -⟩
        exact absurd (hyear ▸ ha) hb
  · by_cases hb : FourDigits b.year
    · constructor
      · intro h
        exact absurd h.symm (take_isoMonth_ne hb ha)
      · rintro ⟨hyear, -⟩
        exact absurd (hyear ▸ hb) ha
    · rw [take_isoMonth_of_not_fourDigits ha, take_isoMonth_of_not_fourDigits hb]
      constructor
      · intro h
        obtain ⟨hsign, hdigits⟩ := List.cons.inj h
        have habs := eq_of_digits hay hby hdigits
        refine ⟨?_, .inr ha⟩
        -- The signs agree as well.
        by_cases hneg : a.year < 0
        · by_cases hneg' : b.year < 0
          · omega
          · simp [hneg, hneg'] at hsign
        · by_cases hneg' : b.year < 0
          · simp [hneg, hneg'] at hsign
          · omega
      · rintro ⟨hyear, -⟩
        rw [hyear]

/-- The seven characters are a month written out when it is the same month and its year has four
digits. -/
theorem take_isoMonth_eq_iff (ham : a.month < 100) (hbm : b.month < 100) :
    (isoMonth a).take 7 = isoMonth b ↔ a = b ∧ FourDigits b.year := by
  constructor
  · intro h
    have hb : FourDigits b.year := fourDigits_of_length (h ▸ length_take_isoMonth)
    rw [← take_isoMonth_of_fourDigits hb] at h
    have ha : FourDigits a.year := by
      by_contra hnot
      exact take_isoMonth_ne hb hnot h.symm
    have hyears : a.year.natAbs < 1000000 ∧ b.year.natAbs < 1000000 := by
      unfold FourDigits at ha hb
      omega
    obtain ⟨hyear, hmonth⟩ := (take_isoMonth_inj ham hbm hyears.1 hyears.2).mp h
    have hmonth' := hmonth.resolve_right (not_not.mpr ha)
    obtain ⟨year, month⟩ := a
    subst hyear hmonth'
    exact ⟨rfl, hb⟩
  · rintro ⟨rfl, hb⟩
    exact take_isoMonth_of_fourDigits hb

end Texts

/-! ### Instants -/

/-- The farthest a `Date` reaches from 1970, in milliseconds. -/
def maxTimeMs : Int := 8640000000000000

/-- `ToIntegerOrInfinity`. -/
def truncate (q : Rat) : Int := q.num.tdiv q.den

/-- The milliseconds of an instant in seconds, as a double. -/
def roundedMs (seconds : Rat) : Rat := nearest (seconds * 1000)

/-- The whole millisecond, rounded towards 1970. -/
def truncatedMs (seconds : Rat) : Int := truncate (roundedMs seconds)

/-- `new Date(seconds * 1000)`, unless the date is invalid. -/
def dateOfSeconds : Number → Option Timestamp
  | .fin seconds =>
    if -maxTimeMs ≤ roundedMs seconds ∧ roundedMs seconds ≤ maxTimeMs then
      some (truncatedMs seconds)
    else none
  | .posInf | .negInf => none

/-- The UTC month of a time value. -/
def monthOfMs (ms : Timestamp) : YearMonth := yearMonth (ms / 86400000)

theorem month_lt (ms : Timestamp) : (monthOfMs ms).month < 100 := yearMonth_month_lt _

/-- The UTC month that an instant in seconds lies in. -/
def utcMonth (seconds : Rat) : YearMonth := monthOfMs (seconds * 1000).floor

def issuanceMonthOf (instant : Number) : Except String String :=
  match dateOfSeconds instant with
  | none => .error "issuanceMonthOf: invalid instant"
  | some ms => .ok (String.ofList ((isoMonth (monthOfMs ms)).take 7))

example : issuanceMonthOf (.fin 1709210096) = .ok "2024-02" := by decide +kernel

/-- The year as `Date.UTC` takes it: the numbers from 0 to 99 are years of the twentieth century. -/
def dateUtcYear (year : Int) : Int := if 0 ≤ year ∧ year ≤ 99 then 1900 + year else year

/-- The month as `Date.UTC` takes it. -/
def dateUtcMonth (m : YearMonth) : YearMonth := { m with year := dateUtcYear m.year }

/-- Unix seconds of the first instant of the UTC month, for an instant whose month starts within the
range of a `Date`. -/
def issuanceMonthStartSeconds (instant : Timestamp) : Int :=
  firstDay (dateUtcMonth (monthOfMs instant)) * 86400

theorem issuanceMonthOf_eq_ok_iff {instant : Number} {month : String} :
    issuanceMonthOf instant = .ok month ↔ ∃ ms, dateOfSeconds instant = some ms ∧
      month = String.ofList ((isoMonth (monthOfMs ms)).take 7) := by
  unfold issuanceMonthOf
  split
  · rename_i hnone
    simp [hnone]
  · rename_i ms hms
    simp [hms, eq_comm]

theorem dateOfSeconds_eq_some {seconds : Rat} {ms : Timestamp}
    (h : dateOfSeconds (.fin seconds) = some ms) : ms = truncatedMs seconds ∧
      -maxTimeMs ≤ roundedMs seconds ∧ roundedMs seconds ≤ maxTimeMs := by
  simp only [dateOfSeconds] at h
  split_ifs at h with hrange
  exact ⟨(Option.some.inj h).symm, hrange⟩

/-- A date of whole seconds is not rounded. -/
theorem dateOfSeconds_intCast {seconds : Int} {ms : Timestamp}
    (h : dateOfSeconds (.fin seconds) = some ms) : ms = seconds * 1000 := by
  obtain ⟨rfl, hlow, hhigh⟩ := dateOfSeconds_eq_some h
  have hbound : IsDouble (2 ^ 53) := by decide +kernel
  have hsmall : |seconds * 1000| < 2 ^ 53 := by
    rw [abs_lt]
    constructor
    · by_contra! hle
      have := nearest_le hbound.neg (q := seconds * 1000) (by exact_mod_cast hle)
      have := hlow.trans this
      norm_num [maxTimeMs] at this
    · by_contra! hle
      have := le_nearest hbound (q := seconds * 1000) (by exact_mod_cast hle)
      have := this.trans hhigh
      norm_num [maxTimeMs] at this
  have hround : roundedMs seconds = (seconds * 1000 : Int) := by
    rw [roundedMs, ← nearest_intCast hsmall]
    push_cast
    rfl
  rw [truncatedMs, hround, truncate, Rat.num_intCast, Rat.den_intCast]
  exact Int.tdiv_one _

/-- Rounding towards zero stays within a range around it. -/
theorem natAbs_truncate_le {q : Rat} {n : Nat} (h₀ : -(n : Rat) ≤ q) (h₁ : q ≤ n) :
    (truncate q).natAbs ≤ n := by
  have hlow := (Rat.le_iff _ _).mp h₀
  have hhigh := (Rat.le_iff _ _).mp h₁
  simp only [Rat.num_neg_eq_neg_num, Rat.num_natCast, Rat.den_natCast, Rat.neg_den, Nat.cast_one,
    mul_one] at hlow hhigh
  have habs : q.num.natAbs ≤ n * q.den := by
    zify
    rw [abs_le]
    exact ⟨by rwa [← neg_mul], hhigh⟩
  unfold truncate
  rw [Int.natAbs_tdiv]
  exact Nat.div_le_of_le_mul (Nat.mul_comm n q.den ▸ habs)

/-- A `Date` names a day of a year with at most six digits. -/
theorem year_of_dateOfSeconds {instant : Number} {ms : Timestamp}
    (h : dateOfSeconds instant = some ms) : (monthOfMs ms).year.natAbs < 1000000 := by
  cases instant with
  | posInf | negInf => cases h
  | fin seconds =>
    obtain ⟨rfl, hrange⟩ := dateOfSeconds_eq_some h
    have hms : (truncatedMs seconds).natAbs ≤ 8640000000000000 := by
      apply natAbs_truncate_le
      · exact_mod_cast hrange.1
      · exact_mod_cast hrange.2
    apply year_natAbs_lt
    · omega
    · omega

end Minister.Vc

import Minister.Plugins.Separation

/-!
# The age that an account-age badge claims

The months between the creation of an account and now are counted from the year, the month and the
day that the clocks of a time zone show, without the time of day. On the day on which the months are
full they are therefore counted from midnight on, whatever time of day the account was created at.

The instant at which months are full is what the clocks show at the creation, the months added, and
taken back to an instant of that zone. A time that the clocks show twice is taken the first time. A
time that they skip is taken as they would have shown it without the jump, so that it comes after
the jump, and perhaps on a day after its own.
-/

namespace Minister.Plugins

open Vc (YearMonth firstDay yearMonth)

/-! ### Days of the calendar -/

/-- The months since the year 0. -/
def CalendarDate.months (d : CalendarDate) : Int := d.fullYear * 12 + d.month

/-- The first day of a month that is counted from the year 0. -/
def monthStart (months : Int) : Int := firstDay ⟨months / 12, (months % 12 + 1).toNat⟩

/-- The same day some months later, or the last day of a month that is too short. -/
def addMonths (day k : Int) : Int :=
  let months := (calendarDate day).months + k
  min (monthStart months + (calendarDate day).date - 1) (monthStart (months + 1) - 1)

theorem monthStart_strictMono : StrictMono monthStart := by
  apply strictMono_int_of_lt_succ
  intro n
  unfold monthStart firstDay Vc.yearStart
  dsimp only
  split_ifs <;> omega

theorem monthStart_months (day : Int) :
    monthStart (calendarDate day).months + (calendarDate day).date - 1 = day := by
  have hstart (m : YearMonth) (hm : 1 ≤ m.month ∧ m.month ≤ 12) :
      monthStart (m.year * 12 + (m.month - 1)) = firstDay m := by
    unfold monthStart
    congr 2 <;> omega
  have := hstart _ (Vc.yearMonth_month_bounds day)
  simp only [CalendarDate.months, calendarDate, this]
  ring

/-- The day that is some months later has come if those months are counted. -/
theorem addMonths_le {created now k : Int} (hk : 0 < k)
    (h : k ≤ monthsBetween (calendarDate created) (calendarDate now)) :
    addMonths created k ≤ now := by
  have hnow := monthStart_months now
  have hcounted : (calendarDate created).months + k < (calendarDate now).months ∨
      (calendarDate created).months + k = (calendarDate now).months ∧
        (calendarDate created).date ≤ (calendarDate now).date := by
    simp only [monthsBetween, CalendarDate.months] at h ⊢
    split_ifs at h <;> omega
  unfold addMonths
  dsimp only
  rcases hcounted with hlt | ⟨heq, hdate⟩
  · -- the whole month is over
    have hmono := monthStart_strictMono.monotone (show _ + 1 ≤ _ from hlt)
    have hfirst : 1 ≤ (calendarDate now).date := by
      have := Vc.firstDay_yearMonth_le now
      simp only [calendarDate]
      omega
    omega
  · rw [heq]
    omega

/-! ### Instants -/

namespace Zone

variable (z : Zone) {time now : Int}

theorem exists_shows (time : Int) : ∃ t, time ≤ z.localMs t := by
  refine ⟨time + dayMs, ?_⟩
  have hoffset := abs_lt.mp (z.offset_lt (time + dayMs))
  unfold localMs
  omega

/-- The first instant at which the clocks show a time or a later one. -/
def reached (time : Int) : Int :=
  Int.leastOfBdd (P := fun t => time ≤ z.localMs t) (time - dayMs)
    (fun t ht => by
      have hoffset := abs_lt.mp (z.offset_lt t)
      unfold localMs at ht
      omega) (z.exists_shows time)

/-- The clocks jump over the time. -/
def Skips (time : Int) : Prop := z.localMs (z.reached time) ≠ time

instance (time : Int) : Decidable (z.Skips time) := inferInstanceAs (Decidable (_ ≠ _))

/-- The instant of a time, taken with the offset before the jump if it is skipped. -/
def instant (time : Int) : Int :=
  if z.Skips time then time - z.offset (z.reached time - 1) else z.reached time

theorem le_reached (time : Int) : time ≤ z.localMs (z.reached time) :=
  (Int.leastOfBdd (P := fun t => time ≤ z.localMs t) _ _ _).2.1

theorem reached_le (h : time ≤ z.localMs now) : z.reached time ≤ now :=
  (Int.leastOfBdd _ _ _).2.2 now h

/-- A time that is skipped comes after the jump. -/
theorem reached_le_instant (time : Int) : z.reached time ≤ z.instant time := by
  unfold instant
  split_ifs
  · have hbefore : z.localMs (z.reached time - 1) < time := by
      by_contra! h
      have := z.reached_le h
      omega
    unfold localMs at hbefore
    omega
  · exact le_refl _

/-- Clocks that are never changed. -/
theorem instant_of_constant {offset : Int} (h : ∀ t, z.offset t = offset) (time : Int) :
    z.instant time = time - offset := by
  have hmin : z.reached time ≤ time - offset := z.reached_le (by simp [localMs, h])
  have hshows := z.le_reached time
  have hreached : z.reached time = time - offset := by
    unfold localMs at hshows
    rw [h] at hshows
    omega
  unfold instant
  split_ifs
  · rw [h]
  · exact hreached

end Zone

/-- What the clocks show some months after an instant. -/
def anniversaryTime (z : Zone) (created : Timestamp) (k : Int) : Int :=
  addMonths (z.localMs created / dayMs) k * dayMs + z.localMs created % dayMs

/-- The instant some months after another. -/
def anniversary (z : Zone) (created : Timestamp) (k : Int) : Int :=
  z.instant (anniversaryTime z created k)

/-- The months are not full yet: now is the day on which they are, and the clocks have not come to
the time, or they have skipped it, and without the jump they would not have come to it. -/
def BeforeAnniversary (z : Zone) (created : Timestamp) (k : Int) (now : Timestamp) : Prop :=
  let time := anniversaryTime z created k
  (z.localMs now / dayMs = time / dayMs ∧ ∀ t ≤ now, z.localMs t < time) ∨
    z.Skips time ∧ now + z.offset (z.reached time - 1) < time

/-- The months claimed are one of the buckets, and the value reaches them. -/
theorem highestBucket_eq_some {value k : Int} (h : highestBucket value accountAgeMonths = some k) :
    0 < k ∧ k ≤ value := by
  simp only [highestBucket, accountAgeMonths, List.foldl_cons, List.foldl_nil] at h
  split_ifs at h <;> cases h <;> omega

section Age

variable {rt : Runtime} {now : Timestamp} {a : Account} {b : DerivedBadge}

/-- The months that a badge claims have passed since the creation of the account, unless now is
the day on which they are full and the clocks have not come to the time, or they have skipped it. -/
theorem anniversary_le_iff (hb : b ∈ a.derived rt now) {provider : OAuthProvider} {k : Int}
    (hclaims : b.claims = .accountAge provider k) :
    ∃ created, a.created rt = some created ∧ (anniversary rt.zone created k ≤ now ↔
      ¬BeforeAnniversary rt.zone created k now) := by
  obtain ⟨created, hcreated, hbucket⟩ := (mem_derived hb).2 provider k hclaims
  obtain ⟨hpos, hcounted⟩ := highestBucket_eq_some hbucket
  have hday := addMonths_le hpos hcounted
  refine ⟨created, hcreated, ?_, ?_⟩
  · rintro hpassed (⟨-, hwaits⟩ | ⟨hskips, hwaits⟩)
    · have hreached := hwaits _ ((rt.zone.reached_le_instant _).trans hpassed)
      exact absurd (rt.zone.le_reached _) (not_le.mpr hreached)
    · rw [anniversary, Zone.instant, if_pos hskips] at hpassed
      linarith
  · intro hnot
    obtain ⟨hsame, hskipped⟩ := not_or.mp hnot
    unfold anniversary Zone.instant
    split_ifs with hskips
    · have hafter := not_and.mp hskipped hskips
      linarith
    · -- On a later day the clocks have shown the time, and it was not skipped.
      by_contra! hlt
      refine hsame ⟨?_, fun t ht => ?_⟩
      · have hshows : rt.zone.localMs now < anniversaryTime rt.zone created k := by
          by_contra! h
          exact absurd (rt.zone.reached_le h) (not_le.mpr hlt)
        simp only [anniversaryTime, dayMs] at hshows hday ⊢
        omega
      · by_contra! h
        exact absurd (rt.zone.reached_le h) (not_le.mpr (ht.trans_lt hlt))

end Age

/-- Clocks that show UTC, and one date that is read. -/
def utcRuntime (text : String) (date : Timestamp) : Runtime :=
  ⟨fun s => if s = text then some date else none, utc⟩

/-- A GitHub account that was created late on a day in January. -/
def lateAccount : Account :=
  .github { id := 480938, login := "hubot", createdAt := some "2020-01-15T23:00:00Z",
            id_double := by decide +kernel }

/-- Early on that day a year later, twelve months are claimed that have not passed. -/
theorem lateAccount_overClaims :
    let rt := utcRuntime "2020-01-15T23:00:00Z" 1579129200000
    (∃ b ∈ lateAccount.derived rt 1610672400000, b.claims = .accountAge .github 12) ∧
      lateAccount.created rt = some 1579129200000 ∧
      ¬anniversary rt.zone 1579129200000 12 ≤ 1610672400000 := by
  refine ⟨by decide +kernel, rfl, ?_⟩
  rw [anniversary, Zone.instant_of_constant _ fun _ => rfl]
  decide +kernel

/-- A Hacker News account that was created on a leap day. -/
def leapDayAccount : Account := .hackernews { id := "tester", created := some (.finite 1582934400) }

/-- Two years later, on the last day of February, one year is claimed. -/
theorem leapDayAccount_passed : ∃ b ∈ leapDayAccount.derived sampleRuntime 1646006400000,
    b.claims = .accountAge .hackernews 12 ∧ ∃ created, leapDayAccount.created sampleRuntime =
      some created ∧ (anniversary utc created 12 ≤ 1646006400000 ↔
        ¬BeforeAnniversary utc created 12 1646006400000) := by
  have hb : ⟨.accountAge .hackernews 12, "tester", false⟩ ∈
      leapDayAccount.derived sampleRuntime 1646006400000 := by decide +kernel
  exact ⟨_, hb, rfl, anniversary_le_iff hb rfl⟩

end Minister.Plugins

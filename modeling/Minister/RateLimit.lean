import Mathlib.Data.List.AList
import Mathlib.Data.List.Induction
import Mathlib.Data.Rat.Floor
import Mathlib.Tactic.Linarith

/-!
# Rate limiting

`createRateLimiter` keeps, for every key, the times of the checks it has allowed. A check counts the
times that lie within the window before it and is refused if there are `max` of them. Times that
have left the window are dropped when their key is checked, and for all keys in a sweep, which runs
when the map has grown large.

Times and windows are exact rationals; the clock and the windows of the source are whole
milliseconds. A map is an association list; the order of its keys is not observable.
-/

namespace Minister.RateLimit

/-- A time in milliseconds. -/
abbrev Millis := ℚ

structure Verdict where
  allowed : Bool
  retryAfterSeconds : Int
  deriving DecidableEq, Repr

structure Options where
  windowMs : Millis
  max : Nat

abbrev Hits := AList fun _ : String => List Millis

/-- `SWEEP_THRESHOLD`. -/
def sweepThreshold : Nat := 10000

section Limiter

variable (opts : Options)

/-- The times that count at `now`. -/
def live (now : Millis) (times : List Millis) : List Millis :=
  times.filter fun t => t > now - opts.windowMs

/-- `hits.get(key) ?? []`. -/
def get (hits : Hits) (key : String) : List Millis := (hits.lookup key).getD []

/-- One round of the loop of `sweep`. -/
def sweepKey (now : Millis) (hits : Hits) (key : String) : Hits :=
  let times := live opts now (get hits key)
  if times.length = 0 then hits.erase key else hits.insert key times

def sweep (now : Millis) (hits : Hits) : Hits := hits.keys.foldl (sweepKey opts now) hits

/-- The map as a check finds it. -/
def swept (threshold : Option Nat) (now : Millis) (hits : Hits) : Hits :=
  match threshold with
  | some n => if n < hits.keys.length then sweep opts now hits else hits
  | none => hits

/-- `Math.max(1, Math.ceil((oldest + windowMs - now) / 1000))`. -/
def retryAfter (now : Millis) (times : List Millis) : Int :=
  Max.max 1 ⌈(times.headD now + opts.windowMs - now) / 1000⌉

structure Check where
  key : String
  now : Millis
  deriving DecidableEq, Repr

def check (threshold : Option Nat) (hits : Hits) (c : Check) : Verdict × Hits :=
  let hits := swept opts threshold c.now hits
  let times := live opts c.now (get hits c.key)
  if opts.max ≤ times.length then (⟨false, retryAfter opts c.now times⟩, hits.insert c.key times)
  else (⟨true, 0⟩, hits.insert c.key (times ++ [c.now]))

/-- The map after a sequence of checks of a new limiter. -/
def after (threshold : Option Nat) (checks : List Check) : Hits :=
  checks.foldl (fun hits c => (check opts threshold hits c).2) ∅

/-- The answers from a map on. -/
def answers (threshold : Option Nat) : Hits → List Check → List Verdict
  | _, [] => []
  | hits, c :: rest =>
    (check opts threshold hits c).1 :: answers threshold (check opts threshold hits c).2 rest

/-- The answers of a new limiter. -/
def verdicts (threshold : Option Nat) (checks : List Check) : List Verdict :=
  answers opts threshold ∅ checks

/-- The times at which the key was allowed. -/
def allowedTimes (threshold : Option Nat) (checks : List Check) (key : String) : List Millis :=
  ((checks.zip (verdicts opts threshold checks)).filter fun p =>
    p.1.key = key ∧ p.2.allowed = true).map fun p => p.1.now

end Limiter

/-- The times of the checks do not decrease. -/
def Chronological (checks : List Check) : Prop := checks.Pairwise fun c d => c.now ≤ d.now

variable {opts : Options} {threshold : Option Nat} {checks : List Check} {c : Check} {hits : Hits}
  {key : String} {now later : Millis} {times : List Millis}

/-! ### What still counts -/

@[simp] theorem live_nil : live opts now [] = [] := rfl

/-- What has left the window stays out. -/
theorem live_live (h : now ≤ later) :
    live opts later (live opts now times) = live opts later times := by
  unfold live
  rw [List.filter_filter]
  apply List.filter_congr
  intro t _
  simp only [gt_iff_lt, Bool.and_eq_decide, decide_eq_decide, decide_eq_true_eq]
  constructor
  · exact fun hboth => hboth.1
  · intro hlive
    exact ⟨hlive, by linarith⟩

theorem live_append (times' : List Millis) :
    live opts now (times ++ times') = live opts now times ++ live opts now times' :=
  List.filter_append ..

theorem get_insert_self : get (hits.insert key times) key = times := by
  rw [get, AList.lookup_insert, Option.getD_some]

theorem get_insert_ne {other : String} (h : other ≠ key) :
    get (hits.insert key times) other = get hits other := by
  rw [get, AList.lookup_insert_ne h, get]

/-! ### The sweep -/

/-- A round of the sweep drops only what no later check counts. -/
theorem live_get_sweepKey (h : now ≤ later) (swept key : String) :
    live opts later (get (sweepKey opts now hits swept) key) = live opts later (get hits key) := by
  unfold sweepKey
  by_cases hkey : key = swept
  · subst hkey
    dsimp only
    split_ifs with hnone
    · have hold : live opts later (get hits key) = [] := by
        rw [← live_live h, List.length_eq_zero_iff.mp hnone, live_nil]
      rw [hold, get, AList.lookup_erase]
      rfl
    · rw [get_insert_self, live_live h]
  · dsimp only
    split_ifs
    · rw [get, AList.lookup_erase_ne hkey, get]
    · rw [get_insert_ne hkey]

theorem live_get_swept (h : now ≤ later) (key : String) :
    live opts later (get (swept opts threshold now hits) key) = live opts later (get hits key) := by
  have hfold (keys : List String) (hits : Hits) :
      live opts later (get (keys.foldl (sweepKey opts now) hits) key) =
        live opts later (get hits key) := by
    induction keys generalizing hits with
    | nil => rfl
    | cons swept keys ih => rw [List.foldl_cons, ih, live_get_sweepKey h]
  unfold swept
  split
  · split_ifs
    · exact hfold hits.keys hits
    · rfl
  · rfl

/-! ### One check -/

/-- A key with room in its window is allowed. -/
theorem check_of_lt (h : (live opts c.now (get hits c.key)).length < opts.max) :
    check opts threshold hits c = (⟨true, 0⟩, (swept opts threshold c.now hits).insert c.key
      (live opts c.now (get hits c.key) ++ [c.now])) := by
  have hswept : live opts c.now (get (swept opts threshold c.now hits) c.key) = _ :=
    live_get_swept (le_refl c.now) c.key
  rw [← hswept] at h ⊢
  exact if_neg (Nat.not_le.mpr h)

/-- A key whose window is full is refused. -/
theorem check_of_le (h : opts.max ≤ (live opts c.now (get hits c.key)).length) :
    check opts threshold hits c =
      (⟨false, retryAfter opts c.now (live opts c.now (get hits c.key))⟩,
        (swept opts threshold c.now hits).insert c.key (live opts c.now (get hits c.key))) := by
  have hswept : live opts c.now (get (swept opts threshold c.now hits) c.key) = _ :=
    live_get_swept (le_refl c.now) c.key
  rw [← hswept] at h ⊢
  exact if_pos h

/-- The times that a check adds for a key. -/
def added (c : Check) (v : Verdict) (key : String) : List Millis :=
  if c.key = key ∧ v.allowed = true then [c.now] else []

/-- What counts after a check. -/
theorem live_get_check (h : c.now ≤ later) (key : String) :
    live opts later (get (check opts threshold hits c).2 key) =
      live opts later (get hits key) ++
        live opts later (added c (check opts threshold hits c).1 key) := by
  rcases Nat.lt_or_ge (live opts c.now (get hits c.key)).length opts.max with hroom | hfull
  · rw [check_of_lt hroom]
    by_cases hkey : c.key = key
    · subst hkey
      simp [get_insert_self, live_append, live_live h, added]
    · simp [get_insert_ne (Ne.symm hkey), live_get_swept h, added, hkey]
  · rw [check_of_le hfull]
    by_cases hkey : c.key = key
    · subst hkey
      simp [get_insert_self, live_live h, added]
    · simp [get_insert_ne (Ne.symm hkey), live_get_swept h, added]

/-- Two maps with the same times that count get the same verdict, whatever they sweep. -/
theorem check_congr {threshold' : Option Nat} {hits' : Hits}
    (h : live opts c.now (get hits c.key) = live opts c.now (get hits' c.key)) :
    (check opts threshold hits c).1 = (check opts threshold' hits' c).1 := by
  rcases Nat.lt_or_ge (live opts c.now (get hits c.key)).length opts.max with hroom | hfull
  · rw [check_of_lt hroom, check_of_lt (h ▸ hroom)]
  · rw [check_of_le hfull, check_of_le (h ▸ hfull), h]

theorem allowed_iff : (check opts threshold hits c).1.allowed = true ↔
    (live opts c.now (get hits c.key)).length < opts.max := by
  rcases Nat.lt_or_ge (live opts c.now (get hits c.key)).length opts.max with hroom | hfull
  · simp [check_of_lt hroom, hroom]
  · simp [check_of_le hfull, Nat.not_lt.mpr hfull]

/-! ### Sequences of checks -/

theorem after_append_singleton : after opts threshold (checks ++ [c]) =
    (check opts threshold (after opts threshold checks) c).2 := by
  rw [after, List.foldl_append]
  rfl

theorem answers_append {rest : List Check} : answers opts threshold hits (checks ++ rest) =
    answers opts threshold hits checks ++ answers opts threshold
      (checks.foldl (fun hits c => (check opts threshold hits c).2) hits) rest := by
  induction checks generalizing hits with
  | nil => rfl
  | cons c checks ih =>
    rw [List.cons_append, answers, answers, ih, List.foldl_cons, List.cons_append]

theorem verdicts_append_singleton : verdicts opts threshold (checks ++ [c]) =
    verdicts opts threshold checks ++ [(check opts threshold (after opts threshold checks) c).1] :=
  answers_append

theorem length_verdicts : (verdicts opts threshold checks).length = checks.length := by
  induction checks using List.reverseRecOn with
  | nil => rfl
  | append_singleton checks c ih => simp [verdicts_append_singleton, ih]

theorem allowedTimes_append_singleton : allowedTimes opts threshold (checks ++ [c]) key =
    allowedTimes opts threshold checks key ++
      added c (check opts threshold (after opts threshold checks) c).1 key := by
  rw [allowedTimes, verdicts_append_singleton, List.zip_append length_verdicts.symm,
    List.filter_append, List.map_append]
  congr 1
  rw [added]
  split_ifs with hadded <;> simp [hadded]

theorem chronological_append_singleton : Chronological (checks ++ [c]) ↔
    Chronological checks ∧ ∀ d ∈ checks, d.now ≤ c.now := by
  simp [Chronological, List.pairwise_append]

/-- **What is kept for a key are the allowed times that still count.** -/
theorem live_get_after (hchecks : Chronological checks) (hlater : ∀ d ∈ checks, d.now ≤ later)
    (key : String) : live opts later (get (after opts threshold checks) key) =
      live opts later (allowedTimes opts threshold checks key) := by
  induction checks using List.reverseRecOn with
  | nil => rfl
  | append_singleton checks c ih =>
    have hc : c.now ≤ later := hlater c (by simp)
    rw [after_append_singleton, live_get_check hc, allowedTimes_append_singleton, live_append,
      ih (chronological_append_singleton.mp hchecks).1 fun d hd => hlater d (by simp [hd])]

/-! ### The bound -/

theorem length_live_mono (h : now ≤ later) :
    (live opts later times).length ≤ (live opts now times).length := by
  rw [← live_live h]
  exact List.length_filter_le _ _

/-- At most `max` allowed times count at once. -/
theorem length_live_le (opts : Options) (threshold : Option Nat) (key : String)
    (hchecks : Chronological checks) (hlater : ∀ d ∈ checks, d.now ≤ later) :
    (live opts later (allowedTimes opts threshold checks key)).length ≤ opts.max := by
  induction checks using List.reverseRecOn with
  | nil => exact Nat.zero_le _
  | append_singleton checks c ih =>
    obtain ⟨hbefore, hc⟩ := chronological_append_singleton.mp hchecks
    have hlater' : ∀ d ∈ checks, d.now ≤ later := fun d hd => hlater d (by simp [hd])
    rw [allowedTimes_append_singleton, live_append, List.length_append, added]
    split_ifs with hadded
    · -- the check that is added was allowed because there was room at its time
      obtain ⟨rfl, hallowed⟩ := hadded
      have hroom := allowed_iff.mp hallowed
      rw [live_get_after hbefore hc] at hroom
      have hfewer : (live opts later (allowedTimes opts threshold checks c.key)).length ≤ _ :=
        length_live_mono (hlater c (by simp))
      have hone : (live opts later [c.now]).length ≤ 1 := List.length_filter_le _ _
      omega
    · simpa using ih hbefore hlater'

theorem length_allowed_le (hchecks : Chronological checks) {first last : Millis}
    (hspan : last - first < opts.windowMs) (key : String) :
    ((allowedTimes opts threshold checks key).filter fun t => first ≤ t ∧ t ≤ last).length ≤
      opts.max := by
  induction checks using List.reverseRecOn with
  | nil => exact Nat.zero_le _
  | append_singleton checks c ih =>
    obtain ⟨hbefore, hc⟩ := chronological_append_singleton.mp hchecks
    by_cases hlast : c.now ≤ last
    · -- everything so far lies before the end of the span, where it still counts
      have hall : ∀ d ∈ checks ++ [c], d.now ≤ last := by
        intro d hd
        rcases List.mem_append.mp hd with hd | hd
        · exact le_trans (hc d hd) hlast
        · rwa [List.mem_singleton.mp hd]
      refine le_trans (List.Sublist.length_le ?_) (length_live_le opts threshold key hchecks hall)
      apply List.monotone_filter_right
      intro t ht
      have ht' : first ≤ t ∧ t ≤ last := of_decide_eq_true ht
      exact decide_eq_true (by linarith)
    · -- the check is after the span
      rw [allowedTimes_append_singleton, List.filter_append, List.length_append]
      have hnone : ((added c (check opts threshold (after opts threshold checks) c).1 key).filter
          fun t => first ≤ t ∧ t ≤ last) = [] := by
        rw [added]
        split_ifs <;> simp [hlast]
      rw [hnone]
      exact ih hbefore

/-! ### The sweep and the retry time -/

theorem verdicts_congr (hchecks : Chronological checks) (threshold threshold' : Option Nat) :
    verdicts opts threshold checks = verdicts opts threshold' checks := by
  induction checks using List.reverseRecOn with
  | nil => rfl
  | append_singleton checks c ih =>
    obtain ⟨hbefore, hc⟩ := chronological_append_singleton.mp hchecks
    rw [verdicts_append_singleton, verdicts_append_singleton, ih hbefore]
    have hlive : live opts c.now (get (after opts threshold checks) c.key) =
        live opts c.now (get (after opts threshold' checks) c.key) := by
      rw [live_get_after hbefore hc, live_get_after hbefore hc, allowedTimes, allowedTimes,
        ih hbefore]
    rw [check_congr hlive]

/-- Checks of other keys allow nothing for this one. -/
theorem allowedTimes_of_other {rest : List Check} (hother : ∀ e ∈ rest, e.key ≠ key) :
    allowedTimes opts threshold (checks ++ rest) key = allowedTimes opts threshold checks key := by
  induction rest using List.reverseRecOn with
  | nil => rw [List.append_nil]
  | append_singleton rest e ih =>
    rw [← List.append_assoc, allowedTimes_append_singleton, added,
      if_neg fun hadded => hother e (by simp) hadded.1, List.append_nil]
    exact ih fun e he => hother e (by simp [he])

theorem retryAfter_spec (opts : Options) (now oldest : Millis) (rest : List Millis) :
    oldest + opts.windowMs ≤ now + 1000 * (retryAfter opts now (oldest :: rest) : ℚ) := by
  have hceil : (oldest + opts.windowMs - now) / 1000 ≤
      (retryAfter opts now (oldest :: rest) : ℚ) := by
    refine le_trans (Int.le_ceil _) ?_
    exact_mod_cast le_max_right _ _
  linarith

/-- A key that was refused and left alone is allowed after the time it was given. -/
theorem allowed_after_retry {rest : List Check} {d : Check} {r : Int} (hmax : 1 ≤ opts.max)
    (hchecks : Chronological (checks ++ c :: (rest ++ [d])))
    (hrefused : (check opts threshold (after opts threshold checks) c).1 = ⟨false, r⟩)
    (hother : ∀ e ∈ rest, e.key ≠ c.key) (hkey : d.key = c.key) (hwait : c.now + 1000 * r ≤ d.now) :
    (check opts threshold (after opts threshold (checks ++ c :: rest)) d).1.allowed = true := by
  have hsplit : checks ++ c :: (rest ++ [d]) = (checks ++ c :: rest) ++ [d] := by simp
  rw [hsplit] at hchecks
  obtain ⟨hbefore, hd⟩ := chronological_append_singleton.mp hchecks
  have hsplit' : checks ++ c :: rest = (checks ++ [c]) ++ rest := by simp
  have hfirst : Chronological (checks ++ [c]) :=
    List.Pairwise.sublist (hsplit' ▸ List.sublist_append_left _ _) hbefore
  obtain ⟨hstart, hc⟩ := chronological_append_singleton.mp hfirst
  -- what counted at the refusal is what the limiter still knows of the key
  have hsame : allowedTimes opts threshold (checks ++ c :: rest) c.key =
      allowedTimes opts threshold checks c.key := by
    rw [hsplit', allowedTimes_of_other hother, allowedTimes_append_singleton, added, hrefused]
    simp
  rw [allowed_iff, hkey, live_get_after hbefore hd, hsame]
  have hfull : opts.max ≤ (live opts c.now (get (after opts threshold checks) c.key)).length := by
    by_contra hroom
    rw [check_of_lt (Nat.lt_of_not_le hroom)] at hrefused
    cases hrefused
  rw [check_of_le hfull, live_get_after hstart hc] at hrefused
  rw [live_get_after hstart hc] at hfull
  have hbound := length_live_le opts threshold c.key hstart hc
  have hcd : c.now ≤ d.now := hd c (by simp)
  rw [← live_live hcd]
  cases htimes : live opts c.now (allowedTimes opts threshold checks c.key) with
  | nil =>
    rw [htimes, List.length_nil] at hfull
    omega
  | cons oldest others =>
    rw [htimes] at hrefused hbound
    obtain rfl : retryAfter opts c.now (oldest :: others) = r :=
      congrArg (·.retryAfterSeconds) hrefused
    -- the oldest time has left the window
    have hold := retryAfter_spec opts c.now oldest others
    have hout : live opts d.now (oldest :: others) = live opts d.now others :=
      List.filter_cons_of_neg (by simpa using by linarith)
    have hothers : (live opts d.now others).length ≤ others.length := List.length_filter_le _ _
    rw [hout]
    rw [List.length_cons] at hbound
    omega

/-- **The rate limiter is correct**: within any span shorter than the window at most `max` checks of
a key are allowed; a limiter that never sweeps gives the same verdicts; and a key that is refused
and left alone is allowed as soon as the time it was given has passed. -/
theorem rateLimiter_correct (opts : Options) (hmax : 1 ≤ opts.max) (checks : List Check)
    (hchecks : Chronological checks) :
    (∀ key first last, last - first < opts.windowMs →
      ((allowedTimes opts (some sweepThreshold) checks key).filter
        fun t => first ≤ t ∧ t ≤ last).length ≤ opts.max) ∧
    verdicts opts (some sweepThreshold) checks = verdicts opts none checks ∧
    ∀ before c rest d r, before ++ c :: (rest ++ [d]) = checks →
      (verdicts opts (some sweepThreshold) (before ++ [c])).getLast? = some ⟨false, r⟩ →
      (∀ e ∈ rest, e.key ≠ c.key) → d.key = c.key → c.now + 1000 * (r : ℚ) ≤ d.now →
      (verdicts opts (some sweepThreshold) checks).getLast? = some ⟨true, 0⟩ := by
  refine ⟨fun key first last hspan => length_allowed_le hchecks hspan key,
    verdicts_congr hchecks _ _, ?_⟩
  intro before c rest d r hsplit hrefused hother hkey hwait
  subst hsplit
  rw [verdicts_append_singleton, List.getLast?_concat, Option.some_inj] at hrefused
  have hallowed := allowed_after_retry hmax hchecks hrefused hother hkey hwait
  have happend : before ++ c :: (rest ++ [d]) = (before ++ c :: rest) ++ [d] := by simp
  rw [happend, verdicts_append_singleton, List.getLast?_concat,
    check_of_lt (allowed_iff.mp hallowed)]

/-- Three checks of one key in a window that takes two, and one after it. -/
theorem rateLimiter_correct_sample :
    verdicts ⟨60000, 2⟩ (some sweepThreshold)
      [⟨"a", 0⟩, ⟨"a", 1000⟩, ⟨"a", 2000⟩, ⟨"b", 2000⟩, ⟨"a", 60000⟩] =
        [⟨true, 0⟩, ⟨true, 0⟩, ⟨false, 58⟩, ⟨true, 0⟩, ⟨true, 0⟩] ∧
    ((allowedTimes ⟨60000, 2⟩ (some sweepThreshold)
      [⟨"a", 0⟩, ⟨"a", 1000⟩, ⟨"a", 2000⟩, ⟨"b", 2000⟩, ⟨"a", 60000⟩] "a").filter
        fun t => 0 ≤ t ∧ t ≤ 59999).length ≤ 2 :=
  ⟨by decide +kernel, (rateLimiter_correct ⟨60000, 2⟩ (by decide) _
    (by norm_num [Chronological])).1 "a" 0 59999 (by norm_num)⟩

end Minister.RateLimit

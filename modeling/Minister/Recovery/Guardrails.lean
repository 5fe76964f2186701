import Minister.Recovery.Config

/-!
# What the guardrails of the recovery configuration guarantee

Every row without solo recovery stays below the threshold, at every time: the actions compare
the worst case of a weight, live or scheduled, with the worst case of the threshold, and a
request makes the requested value the worst case of what it is for.

Weakening is always delayed: weights and threshold are time-locked settings of the editor, so
a higher weight or a lower threshold was requested 72 hours before it counts.
-/

namespace Minister.Recovery

open Relational Transition
open Plugins (JsNumber)

/-! ### No single factor -/

/-- Every row without solo recovery has its worst-case weight below the worst-case
threshold. -/
def SoloBlocked (db : ConfigDb) : Prop :=
  ∃ cfg, db.recoveryConfig = some cfg ∧
    ∀ row ∈ db.badgeWeight, row.allowSoloRecovery = false → worstWeight row < worstThreshold cfg

variable {s s' s₁ : ConfigState} {a : ConfigAction} {as : List ConfigAction}

/-- Each action checks what it writes against the worst case of what it leaves alone. -/
theorem soloBlocked_of_step (hs : SoloBlocked s.db) (hstep : s.step a = some s') :
    SoloBlocked s'.db := by
  obtain ⟨cfg, hcfg, hrows⟩ := hs
  cases configEffect_of_step hstep with
  | nothing | tick => exact ⟨cfg, hcfg, hrows⟩
  | weight haccepted hrow hcfg' hmin hsolo =>
    obtain rfl : cfg = _ := Option.some_inj.mp (hcfg.symm.trans hcfg')
    refine ⟨cfg, hcfg,
      ConfigDb.forall_mem_updateWeightRow (RecoveryWeightWrite.clash_data _) hrow hrows ?_⟩
    intro hoff
    rw [worstWeight_plan]
    apply hsolo
    -- Neither kind of write touches the solo flag.
    rw [← hoff]
    unfold planRecoveryWeightWrite
    split_ifs <;> rfl
  | solo hrow hoff =>
    refine ⟨cfg, hcfg,
      ConfigDb.forall_mem_updateWeightRow (BadgeWeight.clash_setSolo _) hrow hrows ?_⟩
    intro hflag
    obtain ⟨cfg', hcfg', hlt⟩ := hoff hflag
    obtain rfl : cfg = cfg' := Option.some_inj.mp (hcfg.symm.trans hcfg')
    exact hlt
  | threshold haccepted hcfg' hmin hbelow =>
    refine ⟨_, rfl, fun row hrow hoff => ?_⟩
    rw [worstThreshold_plan]
    exact hbelow row hrow hoff

theorem soloBlocked_of_run (hs : SoloBlocked s.db) (hrun : run ConfigState.step s as = some s') :
    SoloBlocked s'.db :=
  run_invariant_always (fun s => SoloBlocked s.db)
    (fun _ _ _ hs hstep => soloBlocked_of_step hs hstep) hs hrun

/-- From a blocked configuration, after any actions and any time, the weight of a row without
solo recovery is at every instant below the threshold at that instant. -/
theorem effective_weight_lt_threshold (hs : SoloBlocked s.db)
    (hrun : run ConfigState.step s as = some s') :
    ∃ cfg, s'.db.recoveryConfig = some cfg ∧
      ∀ now, ∀ row ∈ s'.db.badgeWeight, row.allowSoloRecovery = false →
        effectiveRecoveryWeight row now < effectiveRecoveryThreshold cfg now := by
  obtain ⟨cfg, hcfg, hrows⟩ := soloBlocked_of_run hs hrun
  refine ⟨cfg, hcfg, fun now row hrow hoff => ?_⟩
  calc effectiveRecoveryWeight row now
      ≤ worstWeight row := effectiveRecoveryWeight_le_worstWeight row now
    _ < worstThreshold cfg := hrows row hrow hoff
    _ ≤ effectiveRecoveryThreshold cfg now := worstThreshold_le_effectiveRecoveryThreshold cfg now

/-- An admin who has just signed in with a passkey. -/
def admin : SessionFlags where
  session := { aal := some 2, recovered := false, authTime := some (.finite 0) }
  isAdmin := true

/-- Two of the seed rows and the seed threshold. -/
def seedState : ConfigState where
  db := {
    badgeWeight :=
      [{ badgeType := "email-domain", qualifier := "*", recoveryWeight := 15 },
        { badgeType := "tlsn-attestation", qualifier := "*", recoveryWeight := 100,
          allowSoloRecovery := true }]
    recoveryConfig := some { threshold := 100 } }
  now := 0

/-- A request to raise the weight of `email-domain`, and the 72 hours it takes. -/
def raiseEmailDomain (weight : Int) : List ConfigAction :=
  [.updateRecoveryWeight (some admin)
      { badgeType := "email-domain", qualifier := "*", recoveryWeight := .finite weight },
    .tick (72 * 60 * 60 * 1000)]

theorem seedState_effective_weight_lt_threshold :
    SoloBlocked seedState.db ∧
      ∃ s', run ConfigState.step seedState (raiseEmailDomain 99) = some s' ∧
        s'.db.badgeWeight.map (effectiveRecoveryWeight · s'.now) = [99, 100] ∧
        ∃ cfg, s'.db.recoveryConfig = some cfg ∧
          ∀ now, ∀ row ∈ s'.db.badgeWeight, row.allowSoloRecovery = false →
            effectiveRecoveryWeight row now < effectiveRecoveryThreshold cfg now := by
  have hs : SoloBlocked seedState.db := ⟨_, rfl, by decide⟩
  have hrun : run ConfigState.step seedState (raiseEmailDomain 99) = some _ := rfl
  exact ⟨hs, _, hrun, by decide +kernel, effective_weight_lt_threshold hs hrun⟩

/-! ### Bounds -/

/-- Every weight and the threshold, live or scheduled, is at least its lower bound. -/
def InBounds (db : ConfigDb) : Prop :=
  (∀ row ∈ db.badgeWeight, row.setting.Forall (recoveryWeightMin ≤ ·)) ∧
    ∀ cfg, db.recoveryConfig = some cfg →
      cfg.setting.Forall (recoveryThresholdMin ≤ OrderDual.ofDual ·)

theorem inBounds_of_step (hs : InBounds s.db) (hstep : s.step a = some s') : InBounds s'.db := by
  obtain ⟨hrows, hcfg⟩ := hs
  cases configEffect_of_step hstep with
  | nothing | tick => exact ⟨hrows, hcfg⟩
  | weight haccepted hrow hcfg' hmin hsolo =>
    refine ⟨?_, hcfg⟩
    apply ConfigDb.forall_mem_updateWeightRow (RecoveryWeightWrite.clash_data _) hrow hrows
    rw [setting_planRecoveryWeightWrite]
    exact (hrows _ (ConfigDb.mem_of_weightRow hrow).1).request hmin _ _
  | solo hrow hoff =>
    refine ⟨?_, hcfg⟩
    apply ConfigDb.forall_mem_updateWeightRow (BadgeWeight.clash_setSolo _) hrow hrows
    have hold := hrows _ (ConfigDb.mem_of_weightRow hrow).1
    exact hold
  | threshold haccepted hcfg' hmin hbelow =>
    refine ⟨hrows, fun cfg hnew => ?_⟩
    cases hnew
    rw [setting_planThresholdWrite]
    exact (hcfg _ hcfg').request hmin _ _

theorem InBounds.weight_nonneg {db : ConfigDb} (h : InBounds db) {row : BadgeWeight}
    (hrow : row ∈ db.badgeWeight) (now : Timestamp) : 0 ≤ effectiveRecoveryWeight row now := by
  rw [← effective_weight_setting]
  exact (h.1 row hrow).effective now

theorem InBounds.threshold_pos {db : ConfigDb} (h : InBounds db) {cfg : RecoveryConfig}
    (hcfg : db.recoveryConfig = some cfg) (now : Timestamp) :
    0 < effectiveRecoveryThreshold cfg now := by
  have hmin := (h.2 cfg hcfg).effective now
  rw [effective_threshold_setting, OrderDual.ofDual_toDual] at hmin
  exact lt_of_lt_of_le (by decide) hmin

/-! ### Weakening is delayed -/

/-- No change is scheduled. -/
def NothingPending (db : ConfigDb) : Prop :=
  (∀ row ∈ db.badgeWeight, row.pendingRecoveryWeight = none) ∧
    ∀ cfg, db.recoveryConfig = some cfg → cfg.pendingThreshold = none

/-- What the delay guarantees about every run from a state. -/
structure WeakeningDelayed (s : ConfigState) : Prop where
  /-- A weight that got higher was requested, in an accepted call, 72 hours ago or more. -/
  weight_raised : ∀ {badgeType qualifier as bs s₁ s₂ row₁ row₂},
    run ConfigState.step s as = some s₁ → run ConfigState.step s₁ bs = some s₂ →
    s₁.db.weightRow badgeType qualifier = some row₁ →
    s₂.db.weightRow badgeType qualifier = some row₂ →
    effectiveRecoveryWeight row₁ s₁.now < effectiveRecoveryWeight row₂ s₂.now →
    Happens ConfigState.step (fun s' a =>
      requestedWeight badgeType qualifier s' a = some (effectiveRecoveryWeight row₂ s₂.now) ∧
        s'.now + recoveryWeakenDelayMs ≤ s₂.now) s (as ++ bs)
  /-- A threshold that got lower was requested, in an accepted call, 72 hours ago or more. -/
  threshold_lowered : ∀ {as bs s₁ s₂ cfg₁ cfg₂},
    run ConfigState.step s as = some s₁ → run ConfigState.step s₁ bs = some s₂ →
    s₁.db.recoveryConfig = some cfg₁ → s₂.db.recoveryConfig = some cfg₂ →
    effectiveRecoveryThreshold cfg₂ s₂.now < effectiveRecoveryThreshold cfg₁ s₁.now →
    Happens ConfigState.step (fun s' a =>
      requestedThreshold s' a = some (effectiveRecoveryThreshold cfg₂ s₂.now) ∧
        s'.now + recoveryWeakenDelayMs ≤ s₂.now) s (as ++ bs)
  /-- Until the next accepted request for it a weight is at most what was requested. -/
  weight_le_requested : ∀ {badgeType qualifier as bs a s₁ s₂ s₃ r row},
    run ConfigState.step s as = some s₁ → requestedWeight badgeType qualifier s₁ a = some r →
    s₁.step a = some s₂ →
    Along ConfigState.step (fun s' a' => requestedWeight badgeType qualifier s' a' = none) s₂ bs →
    run ConfigState.step s₂ bs = some s₃ → s₃.db.weightRow badgeType qualifier = some row →
    effectiveRecoveryWeight row s₃.now ≤ r
  /-- Until the next accepted request for it the threshold is at least what was requested. -/
  requested_le_threshold : ∀ {as bs a s₁ s₂ s₃ r cfg},
    run ConfigState.step s as = some s₁ → requestedThreshold s₁ a = some r →
    s₁.step a = some s₂ →
    Along ConfigState.step (fun s' a' => requestedThreshold s' a' = none) s₂ bs →
    run ConfigState.step s₂ bs = some s₃ → s₃.db.recoveryConfig = some cfg →
    r ≤ effectiveRecoveryThreshold cfg s₃.now

/-- The weight of a row as a setting of the editor. -/
def weightSetting (badgeType qualifier : String) (s : ConfigState) : Option (Setting ℤ) :=
  (s.db.weightRow badgeType qualifier).map BadgeWeight.setting

/-- The threshold as a setting of the editor. -/
def thresholdSetting (s : ConfigState) : Option (Setting ℤᵒᵈ) :=
  s.db.recoveryConfig.map RecoveryConfig.setting

theorem weightSetting_of_row {badgeType qualifier : String} {row : BadgeWeight}
    (h : s.db.weightRow badgeType qualifier = some row) :
    weightSetting badgeType qualifier s = some row.setting := by
  rw [weightSetting, h, Option.map_some]

theorem thresholdSetting_of_config {cfg : RecoveryConfig} (h : s.db.recoveryConfig = some cfg) :
    thresholdSetting s = some cfg.setting := by
  rw [thresholdSetting, h, Option.map_some]

/-- Only accepted requests for a row change its weight. -/
theorem timelocked_weight (badgeType qualifier : String) :
    Timelocked ConfigState.step recoveryWeakenDelayMs ConfigState.now
      (weightSetting badgeType qualifier) (requestedWeight badgeType qualifier) where
  setting_of_accepts {s a s' r} hstep hreq := by
    cases configEffect_of_step hstep with
    | nothing hquiet => simp [hquiet.1] at hreq
    | tick => cases hreq
    | weight haccepted hrow hcfg hmin hsolo =>
      simp only [requestedWeight, haccepted] at hreq
      split_ifs at hreq with hkey
      obtain ⟨rfl, rfl⟩ := hkey
      cases hreq
      simp only [weightSetting]
      rw [ConfigDb.weightRow_updateWeightRow _ (RecoveryWeightWrite.key_data _), hrow]
      simp [setting_planRecoveryWeightWrite]
    | solo => cases hreq
    | threshold => cases hreq
  setting_of_not_accepts {s a s'} hstep hreq := by
    cases configEffect_of_step hstep with
    | nothing => rfl
    | tick => rfl
    | weight haccepted hrow hcfg hmin hsolo =>
      simp only [requestedWeight, haccepted] at hreq
      split_ifs at hreq with hkey
      simp only [weightSetting]
      rw [ConfigDb.weightRow_updateWeightRow _ (RecoveryWeightWrite.key_data _)]
      simp [hkey]
    | solo hrow hoff =>
      simp only [weightSetting]
      rw [ConfigDb.weightRow_updateWeightRow (BadgeWeight.clash_setSolo _) fun _ => ⟨rfl, rfl⟩,
        Option.map_map]
      congr 1
      funext row
      -- The flag is no part of the setting.
      rw [Function.comp_apply]
      split_ifs <;> rfl
    | threshold => rfl

/-- Only accepted requests change the threshold. -/
theorem timelocked_threshold :
    Timelocked ConfigState.step recoveryWeakenDelayMs ConfigState.now thresholdSetting
      (fun s a => (requestedThreshold s a).map OrderDual.toDual) where
  setting_of_accepts {s a s' r} hstep hmap := by
    obtain ⟨r, hreq, rfl⟩ := Option.map_eq_some_iff.mp hmap
    cases configEffect_of_step hstep with
    | nothing hquiet => simp [hquiet.2] at hreq
    | tick => cases hreq
    | weight => cases hreq
    | solo => cases hreq
    | threshold haccepted hcfg hmin hrows =>
      simp only [requestedThreshold, haccepted] at hreq
      cases hreq
      simp [thresholdSetting, ConfigDb.updateConfig, hcfg, setting_planThresholdWrite]
  setting_of_not_accepts {s a s'} hstep hreq := by
    rw [Option.map_eq_none_iff] at hreq
    cases configEffect_of_step hstep with
    | nothing => rfl
    | tick => rfl
    | weight => rfl
    | solo => rfl
    | threshold haccepted => simp [requestedThreshold, haccepted] at hreq

/-- From a state with nothing scheduled, every weakening is 72 hours old, and until the next
request nothing is laxer than the last request. -/
theorem weakeningDelayed (hs : NothingPending s.db) : WeakeningDelayed s := by
  have hweights : ∀ badgeType qualifier x, weightSetting badgeType qualifier s = some x →
      x.pending = none := by
    intro badgeType qualifier x hx
    obtain ⟨row, hrow, rfl⟩ := Option.map_eq_some_iff.mp hx
    exact hs.1 row (ConfigDb.mem_of_weightRow hrow).1
  have hthreshold : ∀ x, thresholdSetting s = some x → x.pending = none := by
    intro x hx
    obtain ⟨cfg, hcfg, rfl⟩ := Option.map_eq_some_iff.mp hx
    simp [RecoveryConfig.setting, hs.2 cfg hcfg]
  constructor
  case weight_raised =>
    intro badgeType qualifier as bs s₁ s₂ row₁ row₂ hrun₁ hrun₂ hrow₁ hrow₂ hlt
    simp only [← effective_weight_setting] at hlt ⊢
    exact (timelocked_weight badgeType qualifier).happens_of_lt (hweights _ _) hrun₁ hrun₂
      (weightSetting_of_row hrow₁) (weightSetting_of_row hrow₂) hlt
  case threshold_lowered =>
    intro as bs s₁ s₂ cfg₁ cfg₂ hrun₁ hrun₂ hcfg₁ hcfg₂ hlt
    -- In the dual order a lower threshold is the laxer one, as a higher weight is.
    have hlax : cfg₁.setting.effective s₁.now < cfg₂.setting.effective s₂.now := by
      rw [effective_threshold_setting, effective_threshold_setting]
      exact hlt
    refine (timelocked_threshold.happens_of_lt hthreshold hrun₁ hrun₂
      (thresholdSetting_of_config hcfg₁) (thresholdSetting_of_config hcfg₂) hlax).mono ?_
    rintro s' a ⟨hreq, htime⟩
    rw [effective_threshold_setting] at hreq
    obtain ⟨r, hr, heq⟩ := Option.map_eq_some_iff.mp hreq
    exact ⟨hr.trans (congrArg some (OrderDual.toDual.injective heq)), htime⟩
  case weight_le_requested =>
    intro badgeType qualifier as bs a s₁ s₂ s₃ r row _ hreq hstep hquiet hrun hrow
    rw [← effective_weight_setting]
    exact (timelocked_weight badgeType qualifier).effective_le_of_accepts hreq hstep hquiet
      hrun (weightSetting_of_row hrow)
  case requested_le_threshold =>
    intro as bs a s₁ s₂ s₃ r cfg _ hreq hstep hquiet hrun hcfg
    have hle : cfg.setting.effective s₃.now ≤ OrderDual.toDual r :=
      timelocked_threshold.effective_le_of_accepts (by rw [hreq, Option.map_some]) hstep
        (by simpa only [Option.map_eq_none_iff] using hquiet) hrun
        (thresholdSetting_of_config hcfg)
    rw [effective_threshold_setting] at hle
    exact hle

theorem seedState_weakeningDelayed : NothingPending seedState.db ∧ WeakeningDelayed seedState := by
  have hs : NothingPending seedState.db := by
    refine ⟨by decide, fun cfg hcfg => ?_⟩
    cases hcfg
    rfl
  exact ⟨hs, weakeningDelayed hs⟩

/-! ### Before the date -/

/-- The weight of a row that counts now. -/
def weightNow (badgeType qualifier : String) (s : ConfigState) : Option Int :=
  (s.db.weightRow badgeType qualifier).map (effectiveRecoveryWeight · s.now)

/-- The threshold that counts now. -/
def thresholdNow (s : ConfigState) : Option Int :=
  s.db.recoveryConfig.map (effectiveRecoveryThreshold · s.now)

/-- From a state on, until a time and as long as no request is accepted, what counts is a value. -/
def Steady (current : ConfigState → Option Int)
    (requested : ConfigState → ConfigAction → Option Int) (value : Option Int) (s : ConfigState)
    (t : Timestamp) : Prop :=
  ∀ bs s', Along ConfigState.step (fun s a => requested s a = none) s bs →
    run ConfigState.step s bs = some s' → s'.now < t → current s' = value

/-- **Scheduling changes nothing before its date** if and only if the value in force is that of the
live column, for weights and for the threshold. -/
theorem steady_of_scheduled_iff (s : ConfigState) (flags : Option SessionFlags) :
    (∀ (input : UpdateRecoveryWeightInput) (db : ConfigDb) (t : Timestamp),
      updateRecoveryWeight s.db s.now flags input = .ok (db, some t) →
        (Steady (weightNow input.badgeType input.qualifier)
            (requestedWeight input.badgeType input.qualifier)
            (weightNow input.badgeType input.qualifier s) ⟨db, s.now⟩ t ↔
          weightNow input.badgeType input.qualifier s =
            (s.db.weightRow input.badgeType input.qualifier).map (·.recoveryWeight))) ∧
    ∀ (threshold : JsNumber) (db : ConfigDb) (t : Timestamp),
      updateRecoveryThreshold s.db s.now flags threshold = .ok (db, some t) →
        (Steady thresholdNow requestedThreshold (thresholdNow s) ⟨db, s.now⟩ t ↔
          thresholdNow s = s.db.recoveryConfig.map (·.threshold)) := by
  have hdelay : (0 : Int) < recoveryWeakenDelayMs := by decide
  constructor
  · intro input db t h
    obtain ⟨row, cfg, hrow, -, -, -, -, hat⟩ := updateRecoveryWeight_spec h
    obtain ⟨hlax, rfl⟩ := scheduledAt_planRecoveryWeightWrite hat.symm
    have hstep : s.step (.updateRecoveryWeight flags input) = some ⟨db, s.now⟩ := by
      simp [ConfigState.step, ConfigState.after, h, Except.map]
    have hreq : requestedWeight input.badgeType input.qualifier s
        (.updateRecoveryWeight flags input) = some (wholeNumber input.recoveryWeight) := by
      simp [requestedWeight, h]
    have hsteady := (timelocked_weight input.badgeType input.qualifier).steady_iff
      (weightSetting_of_row hrow) hreq hlax hstep rfl hdelay
    have hnow (s : ConfigState) : (weightSetting input.badgeType input.qualifier s).map
        (·.effective s.now) = weightNow input.badgeType input.qualifier s := by
      simp [weightSetting, weightNow, Function.comp_def, effective_weight_setting]
    simp only [hnow, effective_weight_setting] at hsteady
    simpa [Steady, weightNow, hrow, BadgeWeight.setting] using hsteady
  · intro threshold db t h
    obtain ⟨cfg, hcfg, -, -, -, hat⟩ := updateRecoveryThreshold_spec h
    obtain ⟨hlax, rfl⟩ := scheduledAt_planThresholdWrite hat.symm
    have hstep : s.step (.updateRecoveryThreshold flags threshold) = some ⟨db, s.now⟩ := by
      simp [ConfigState.step, ConfigState.after, h, Except.map]
    have hreq : (requestedThreshold s (.updateRecoveryThreshold flags threshold)).map
        OrderDual.toDual = some (OrderDual.toDual (wholeNumber threshold)) := by
      simp [requestedThreshold, h]
    have hsteady := timelocked_threshold.steady_iff (thresholdSetting_of_config hcfg) hreq hlax
      hstep rfl hdelay
    have hnow (s : ConfigState) : (thresholdSetting s).map (·.effective s.now) =
        (thresholdNow s).map OrderDual.toDual := by
      simp [thresholdSetting, thresholdNow, Function.comp_def, effective_threshold_setting]
    simp only [hnow, effective_threshold_setting] at hsteady
    simpa [Steady, thresholdNow, hcfg, RecoveryConfig.setting] using hsteady

/-- A request for the weight of `email-domain`. -/
def emailDomainWeight (weight : Int) : UpdateRecoveryWeightInput :=
  { badgeType := "email-domain", qualifier := "*", recoveryWeight := .finite weight }

/-- What an accepted request returns can be evaluated. -/
theorem exists_accepted {x : Except ActionError (ConfigDb × Option Timestamp)} {t : Timestamp}
    {P : ConfigDb → Prop} [DecidablePred P]
    (h : x.toOption.any (fun r => r.2 = some t ∧ P r.1) = true) :
    ∃ db, x = .ok (db, some t) ∧ P db := by
  cases x with
  | error e => cases h
  | ok r =>
    obtain ⟨hat, hP⟩ := of_decide_eq_true h
    exact ⟨r.1, congrArg Except.ok (Prod.ext rfl hat), hP⟩

theorem seedState_steady : ∃ db,
    updateRecoveryWeight seedState.db seedState.now (some admin) (emailDomainWeight 50) =
      .ok (db, some recoveryWeakenDelayMs) ∧
    Steady (weightNow "email-domain" "*") (requestedWeight "email-domain" "*") (some 15)
      ⟨db, seedState.now⟩ recoveryWeakenDelayMs := by
  obtain ⟨db, hok, -⟩ : ∃ db,
      updateRecoveryWeight seedState.db seedState.now (some admin) (emailDomainWeight 50) =
        .ok (db, some recoveryWeakenDelayMs) ∧ True := exists_accepted (by decide +kernel)
  exact ⟨db, hok,
    ((steady_of_scheduled_iff seedState (some admin)).1 (emailDomainWeight 50) db _ hok).mpr rfl⟩

/-- The admin has signed in again after three days. -/
def laterAdmin : SessionFlags :=
  { admin with session := { admin.session with authTime := some (.finite (72 * 60 * 60)) } }

/-- Three days after the weight was raised to 50 it is to be raised to 60, in another three days.
At once it falls back to the 15 of the live column. -/
theorem raisedAgain_falls : ∃ s db t,
    run ConfigState.step seedState (raiseEmailDomain 50) = some s ∧
      updateRecoveryWeight s.db s.now (some laterAdmin) (emailDomainWeight 60) =
        .ok (db, some t) ∧
      s.now < t ∧ weightNow "email-domain" "*" s = some 50 ∧
      weightNow "email-domain" "*" ⟨db, s.now⟩ = some 15 ∧
      ¬ Steady (weightNow "email-domain" "*") (requestedWeight "email-domain" "*")
        (weightNow "email-domain" "*" s) ⟨db, s.now⟩ t := by
  obtain ⟨s, hrun, hlt, hbefore, hany⟩ : ∃ s,
      run ConfigState.step seedState (raiseEmailDomain 50) = some s ∧
        s.now < 2 * recoveryWeakenDelayMs ∧ weightNow "email-domain" "*" s = some 50 ∧
        (updateRecoveryWeight s.db s.now (some laterAdmin) (emailDomainWeight 60)).toOption.any
          (fun r => r.2 = some (2 * recoveryWeakenDelayMs) ∧
            weightNow "email-domain" "*" ⟨r.1, s.now⟩ = some 15) = true :=
    exists_run (by decide +kernel)
  obtain ⟨db, hok, hafter⟩ :=
    exists_accepted (P := fun db => weightNow "email-domain" "*" ⟨db, s.now⟩ = some 15) hany
  refine ⟨s, db, _, hrun, hok, hlt, hbefore, hafter, fun hsteady => ?_⟩
  have hsame := hsteady [] _ trivial rfl hlt
  rw [hafter, hbefore] at hsame
  cases hsame

end Minister.Recovery

import Minister.Plugins.Accounts
import Minister.Transition.Timelock

/-!
# The recovery configuration and its editor

What a badge type counts for in account recovery is a row of `BadgeWeight`; how much has to be
reached is the one row of `RecoveryConfig`. Both are edited by three server actions
(`server/recovery-config-actions.ts`) under the guardrails of
`lib/recovery-config-guardrails.ts`: a change that makes recovery harder is applied at once, a
change that makes it easier is scheduled 72 hours ahead.

The three actions take the same advisory lock first, so each is one step. The audit row and
the mail to the admins are left out. The clock is in milliseconds.
-/

namespace Minister.Recovery

open Relational Transition
open Plugins (JsNumber)

/-! ### Rows -/

/-- What one kind of badge counts for. -/
structure BadgeWeight where
  badgeType : String
  qualifier : String
  recoveryWeight : Int
  allowSoloRecovery : Bool := false
  pendingRecoveryWeight : Option Int := none
  recoveryEffectiveAt : Option Timestamp := none
  deriving DecidableEq, Repr

instance : Constrained BadgeWeight where
  clash a b := a.badgeType == b.badgeType && a.qualifier == b.qualifier

/-- The row with id `singleton`. -/
structure RecoveryConfig where
  threshold : Int
  pendingThreshold : Option Int := none
  thresholdEffectiveAt : Option Timestamp := none
  deriving DecidableEq, Repr

/-- The tables the editor works on. -/
structure ConfigDb where
  badgeWeight : List BadgeWeight
  recoveryConfig : Option RecoveryConfig
  badgeWeight_consistent : Consistent badgeWeight := by decide

/-- `badgeWeight.findUnique` by type and qualifier. -/
def ConfigDb.weightRow (db : ConfigDb) (badgeType qualifier : String) : Option BadgeWeight :=
  db.badgeWeight.find? fun row => row.badgeType == badgeType && row.qualifier == qualifier

/-- `badgeWeight.update` of a row by type and qualifier, of columns other than those. -/
def ConfigDb.updateWeightRow (db : ConfigDb) (badgeType qualifier : String)
    (f : BadgeWeight → BadgeWeight) (hf : ∀ a b, clash (f a) b = clash a b) : ConfigDb where
  badgeWeight := mapWhere (fun row => row.badgeType == badgeType && row.qualifier == qualifier) f
    db.badgeWeight
  recoveryConfig := db.recoveryConfig
  badgeWeight_consistent := db.badgeWeight_consistent.mapWhere_of_clash _ hf

/-- `recoveryConfig.update` of the one row. -/
def ConfigDb.updateConfig (db : ConfigDb) (cfg : RecoveryConfig) : ConfigDb :=
  { db with recoveryConfig := some cfg }

/-! ### Guardrails -/

/-- `RECOVERY_WEAKEN_DELAY_MS`, which is `CREDENTIAL_QUARANTINE_MS`: 72 hours. -/
def recoveryWeakenDelayMs : Int := 72 * 60 * 60 * 1000

def recoveryWeightMin : Int := 0

def recoveryWeightMax : Int := 100

def recoveryThresholdMin : Int := 100

def recoveryThresholdMax : Int := 1000

/-- The two bounds checks: not a whole number, or outside the bounds. -/
def boundsError (whole outside : String) (lo hi : Int) : JsNumber → Option String
  | .infinite => some whole
  | .finite q => if q.den ≠ 1 then some whole
    else if q < lo ∨ q > hi then some outside
    else none

def validateRecoveryWeightBounds : JsNumber → Option String :=
  boundsError "Recovery weight must be a whole number."
    s!"Recovery weight must be between {recoveryWeightMin} and {recoveryWeightMax}."
    recoveryWeightMin recoveryWeightMax

def validateThresholdBounds : JsNumber → Option String :=
  boundsError "Threshold must be a whole number."
    s!"Threshold must be between {recoveryThresholdMin} and {recoveryThresholdMax}."
    recoveryThresholdMin recoveryThresholdMax

/-- The number as the integer it is once the bounds check has passed. -/
def wholeNumber : JsNumber → Int
  | .infinite => 0
  | .finite q => q.num

def soloBlockError (effectiveWeight effectiveThreshold : Int) (allowSolo : Bool) :
    Option String :=
  if effectiveWeight ≥ effectiveThreshold ∧ ¬allowSolo then
    some (s!"A single badge at recovery weight {effectiveWeight} would meet the recovery " ++
      s!"threshold {effectiveThreshold} on its own. Enable solo recovery for this row " ++
      "first, or keep its weight below the threshold.")
  else none

inductive RecoveryWeightWrite
  | immediate (recoveryWeight : Int)
  | scheduled (pendingRecoveryWeight : Int) (recoveryEffectiveAt : Timestamp)
  deriving DecidableEq, Repr

def planRecoveryWeightWrite (currentLive requested : Int) (now : Timestamp) :
    RecoveryWeightWrite :=
  if requested ≤ currentLive then .immediate requested
  else .scheduled requested (now + recoveryWeakenDelayMs)

inductive ThresholdWrite
  | immediate (threshold : Int)
  | scheduled (pendingThreshold : Int) (thresholdEffectiveAt : Timestamp)
  deriving DecidableEq, Repr

def planThresholdWrite (currentLive requested : Int) (now : Timestamp) : ThresholdWrite :=
  if requested ≥ currentLive then .immediate requested
  else .scheduled requested (now + recoveryWeakenDelayMs)

def effectiveRecoveryWeight (row : BadgeWeight) (now : Timestamp) : Int :=
  match row.pendingRecoveryWeight, row.recoveryEffectiveAt with
  | some pending, some effectiveAt => if effectiveAt ≤ now then pending else row.recoveryWeight
  | _, _ => row.recoveryWeight

def effectiveRecoveryThreshold (cfg : RecoveryConfig) (now : Timestamp) : Int :=
  match cfg.pendingThreshold, cfg.thresholdEffectiveAt with
  | some pending, some effectiveAt => if effectiveAt ≤ now then pending else cfg.threshold
  | _, _ => cfg.threshold

/-- The columns that a planned weight change writes. An immediate change clears what was
scheduled, a scheduled one leaves the live weight. -/
def RecoveryWeightWrite.data : RecoveryWeightWrite → BadgeWeight → BadgeWeight
  | .immediate weight, row => { row with
      recoveryWeight := weight, pendingRecoveryWeight := none, recoveryEffectiveAt := none }
  | .scheduled pending effectiveAt, row => { row with
      pendingRecoveryWeight := some pending, recoveryEffectiveAt := some effectiveAt }

def RecoveryWeightWrite.scheduledAt : RecoveryWeightWrite → Option Timestamp
  | .immediate _ => none
  | .scheduled _ effectiveAt => some effectiveAt

/-- The columns that a planned threshold change writes. -/
def ThresholdWrite.data : ThresholdWrite → RecoveryConfig → RecoveryConfig
  | .immediate threshold, _ =>
    { threshold := threshold, pendingThreshold := none, thresholdEffectiveAt := none }
  | .scheduled pending effectiveAt, cfg => { cfg with
      pendingThreshold := some pending, thresholdEffectiveAt := some effectiveAt }

def ThresholdWrite.scheduledAt : ThresholdWrite → Option Timestamp
  | .immediate _ => none
  | .scheduled _ effectiveAt => some effectiveAt

/-- The column that `setAllowSoloRecovery` writes. -/
def BadgeWeight.setSolo (allowSoloRecovery : Bool) (row : BadgeWeight) : BadgeWeight :=
  { row with allowSoloRecovery := allowSoloRecovery }

theorem BadgeWeight.clash_setSolo (allowSolo : Bool) (a b : BadgeWeight) :
    clash (a.setSolo allowSolo) b = clash a b := rfl

theorem RecoveryWeightWrite.clash_data (write : RecoveryWeightWrite) (a b : BadgeWeight) :
    clash (write.data a) b = clash a b := by
  cases write <;> rfl

theorem RecoveryWeightWrite.key_data (write : RecoveryWeightWrite) (row : BadgeWeight) :
    (write.data row).badgeType = row.badgeType ∧ (write.data row).qualifier = row.qualifier := by
  cases write <;> exact ⟨rfl, rfl⟩

/-! ### The gate -/

/-- What `run` makes of an exception. -/
inductive ActionError
  | stepUp (requiredAal : Nat)
  | error (message : String)
  deriving DecidableEq, Repr

/-- What the gate reads of a session. -/
structure Session where
  aal : Option Nat
  recovered : Bool
  authTime : Option JsNumber
  deriving DecidableEq, Repr

/-- What `loadSessionFlags` returns for someone who is signed in. -/
structure SessionFlags where
  session : Session
  isAdmin : Bool
  deriving DecidableEq, Repr

/-- Throw unless the condition holds. -/
def ensure (ok : Bool) (e : ActionError) : Except ActionError Unit :=
  if ok then .ok () else .error e

/-- Throw the message of a check, if it has one. -/
def passes : Option String → Except ActionError Unit
  | some message => .error (.error message)
  | none => .ok ()

/-- Throw if there is no row. -/
def orThrow {α : Type} (row : Option α) (message : String) : Except ActionError α :=
  match row with
  | some row => .ok row
  | none => .error (.error message)

def requireAdmin : Option SessionFlags → Except ActionError Session
  | none => .error (.error "Not an admin")
  | some flags => if flags.isAdmin then .ok flags.session else .error (.error "Not an admin")

def requireAal (session : Session) (floor : Nat) : Except ActionError Unit :=
  ensure (decide (floor ≤ session.aal.getD 0)) (.stepUp floor)

/-- A missing or infinite time of authentication is never recent. -/
def recent (now : Timestamp) (maxAgeSecs : Int) : Option JsNumber → Bool
  | some (.finite authTime) => decide (((now / 1000 : Int) : Rat) - authTime ≤ maxAgeSecs)
  | _ => false

def requireAuthRecency (now : Timestamp) (session : Session) (maxAgeSecs : Int) :
    Except ActionError Unit :=
  ensure (recent now maxAgeSecs session.authTime) (.stepUp 2)

/-- `RECOVERY_CONFIG_MAX_AUTH_AGE_SECS`. -/
def recoveryConfigMaxAuthAgeSecs : Int := 600

def gateRecoveryConfig (now : Timestamp) (flags : Option SessionFlags) :
    Except ActionError Session := do
  let session ← requireAdmin flags
  requireAal session 2
  ensure (!session.recovered) (.error
    "A recovered session can't edit the recovery config. Re-authenticate with a passkey first.")
  requireAuthRecency now session recoveryConfigMaxAuthAgeSecs
  return session

/-! ### The actions -/

/-- `RECOVERY_ELIGIBLE_TYPES`. -/
def recoveryEligibleTypes : List String :=
  ["oauth-account", "email-domain", "email-exact", "tlsn-attestation"]

/-- The lowest threshold that is in force or scheduled. -/
def worstThreshold (cfg : RecoveryConfig) : Int :=
  match cfg.pendingThreshold with
  | some pending => min cfg.threshold pending
  | none => cfg.threshold

/-- The highest weight that is in force or scheduled. -/
def worstWeight (row : BadgeWeight) : Int :=
  match row.pendingRecoveryWeight with
  | some pending => max row.recoveryWeight pending
  | none => row.recoveryWeight

structure UpdateRecoveryWeightInput where
  badgeType : String
  qualifier : String
  recoveryWeight : JsNumber
  deriving DecidableEq, Repr

structure SetAllowSoloInput where
  badgeType : String
  qualifier : String
  allowSoloRecovery : Bool
  deriving DecidableEq, Repr

/-- What the schema checks of both inputs that name a row. -/
def parseRowName (badgeType qualifier : String) : Option String :=
  if badgeType = "" ∨ qualifier = "" then some "String must contain at least 1 character(s)"
  else none

/-- Set a recovery weight. Returns when the change takes effect, if it is scheduled. -/
def updateRecoveryWeight (db : ConfigDb) (now : Timestamp) (flags : Option SessionFlags)
    (input : UpdateRecoveryWeightInput) : Except ActionError (ConfigDb × Option Timestamp) := do
  let badgeType := input.badgeType
  let qualifier := input.qualifier
  let _ ← gateRecoveryConfig now flags
  passes (parseRowName badgeType qualifier)
  ensure (badgeType ∈ recoveryEligibleTypes) (.error
    (s!"{badgeType} is not recovery-eligible; its recovery weight is never read by " ++
      "the recovery engine and cannot be edited."))
  passes (validateRecoveryWeightBounds input.recoveryWeight)
  let row ← orThrow (db.weightRow badgeType qualifier)
    s!"No badge-weight row for {badgeType} / {qualifier}."
  let cfg ← orThrow db.recoveryConfig "Recovery config is not seeded."
  -- A weight that is only scheduled is checked now, against any threshold it may meet.
  passes (soloBlockError (wholeNumber input.recoveryWeight) (worstThreshold cfg)
    row.allowSoloRecovery)
  -- What counts as a raise is judged by the live column, even if a scheduled weight is due.
  let plan := planRecoveryWeightWrite row.recoveryWeight (wholeNumber input.recoveryWeight) now
  return (db.updateWeightRow badgeType qualifier plan.data plan.clash_data, plan.scheduledAt)

/-- The check for turning solo recovery off: the row must not be left above the threshold. -/
def soloOffError (row : BadgeWeight) (cfg : RecoveryConfig) : Option String :=
  (soloBlockError (worstWeight row) (worstThreshold cfg) false).map fun soloError =>
    s!"Can't disable solo recovery here: {soloError} Lower this row's weight first."

/-- Turning solo recovery off is checked, turning it on is not. -/
def checkAllowSolo (db : ConfigDb) (row : BadgeWeight) (allowSoloRecovery : Bool) :
    Except ActionError Unit :=
  if allowSoloRecovery then .ok () else do
    let cfg ← orThrow db.recoveryConfig "Recovery config is not seeded."
    passes (soloOffError row cfg)

/-- Allow or forbid recovery by this kind of badge alone. -/
def setAllowSoloRecovery (db : ConfigDb) (now : Timestamp) (flags : Option SessionFlags)
    (input : SetAllowSoloInput) : Except ActionError ConfigDb := do
  let badgeType := input.badgeType
  let qualifier := input.qualifier
  let _ ← gateRecoveryConfig now flags
  passes (parseRowName badgeType qualifier)
  let row ← orThrow (db.weightRow badgeType qualifier)
    s!"No badge-weight row for {badgeType} / {qualifier}."
  -- The flag is as asked for already: nothing is checked or written.
  if row.allowSoloRecovery = input.allowSoloRecovery then
    return db
  else
    checkAllowSolo db row input.allowSoloRecovery
    return db.updateWeightRow badgeType qualifier
      (BadgeWeight.setSolo input.allowSoloRecovery) (BadgeWeight.clash_setSolo _)

/-- The message for the first row without solo recovery that would reach the threshold. -/
def thresholdError (threshold : Int) (nonSoloRows : List BadgeWeight) : Option String :=
  (nonSoloRows.find? fun row => worstWeight row ≥ threshold).map fun row =>
    let badgeType := row.badgeType
    let qualifier := row.qualifier
    let weight := worstWeight row
    s!"Can't lower the threshold to {threshold}: {badgeType} / {qualifier} " ++
      s!"(recovery weight {weight}) would then solo-recover an account. " ++
      "Lower that row's weight or enable solo recovery for it first."

/-- Set the threshold. Returns when the change takes effect, if it is scheduled. -/
def updateRecoveryThreshold (db : ConfigDb) (now : Timestamp) (flags : Option SessionFlags)
    (threshold : JsNumber) : Except ActionError (ConfigDb × Option Timestamp) := do
  let _ ← gateRecoveryConfig now flags
  passes (validateThresholdBounds threshold)
  let cfg ← orThrow db.recoveryConfig "Recovery config is not seeded."
  -- The check is made for a raise as well as for a cut.
  passes (thresholdError (wholeNumber threshold)
    (findMany (fun row => !row.allowSoloRecovery) db.badgeWeight))
  let plan := planThresholdWrite cfg.threshold (wholeNumber threshold) now
  return (db.updateConfig (plan.data cfg), plan.scheduledAt)

/-! ### What an accepted action has checked and written -/

section Accepted

variable {α : Type} {db db' : ConfigDb} {now : Timestamp} {flags : Option SessionFlags}

theorem passes_eq_ok_iff {error? : Option String} {u : Unit} :
    passes error? = .ok u ↔ error? = none := by
  cases error? <;> simp [passes]

theorem orThrow_eq_ok_iff {row? : Option α} {row : α} {message : String} :
    orThrow row? message = .ok row ↔ row? = some row := by
  cases row? <;> simp [orThrow]

/-- A number within the bounds is the integer it is read as. -/
theorem boundsError_eq_none_iff {whole outside : String} {lo hi : Int} {x : JsNumber} :
    boundsError whole outside lo hi x = none ↔
      x = .finite (wholeNumber x) ∧ lo ≤ wholeNumber x ∧ wholeNumber x ≤ hi := by
  cases x with
  | infinite => simp [boundsError]
  | finite q =>
    simp only [boundsError, wholeNumber]
    by_cases hden : q.den = 1
    · have hq : q = (q.num : Rat) := (Rat.coe_int_num_of_den_eq_one hden).symm
      have hlo : q < (lo : Rat) ↔ q.num < lo := by
        rw [hq]
        simp
      have hhi : q > (hi : Rat) ↔ hi < q.num := by
        rw [hq]
        simp
      simp [hden, hlo, hhi, ← hq]
    · have hne : q ≠ (q.num : Rat) := by
        intro hq
        rw [hq] at hden
        exact hden rfl
      simp [hden, hne]

theorem soloBlockError_eq_none_iff {weight threshold : Int} {allowSolo : Bool} :
    soloBlockError weight threshold allowSolo = none ↔
      (allowSolo = false → weight < threshold) := by
  unfold soloBlockError
  cases allowSolo <;> simp

theorem thresholdError_eq_none_iff {threshold : Int} {rows : List BadgeWeight} :
    thresholdError threshold rows = none ↔ ∀ row ∈ rows, worstWeight row < threshold := by
  simp [thresholdError]

theorem updateRecoveryWeight_spec {input : UpdateRecoveryWeightInput} {at? : Option Timestamp}
    (h : updateRecoveryWeight db now flags input = .ok (db', at?)) :
    ∃ row cfg, db.weightRow input.badgeType input.qualifier = some row ∧
      db.recoveryConfig = some cfg ∧
      recoveryWeightMin ≤ wholeNumber input.recoveryWeight ∧
      (row.allowSoloRecovery = false →
        wholeNumber input.recoveryWeight < worstThreshold cfg) ∧
      db' = db.updateWeightRow input.badgeType input.qualifier
        (planRecoveryWeightWrite row.recoveryWeight (wholeNumber input.recoveryWeight) now).data
        (RecoveryWeightWrite.clash_data _) ∧
      at? = (planRecoveryWeightWrite row.recoveryWeight (wholeNumber input.recoveryWeight)
        now).scheduledAt := by
  simp only [updateRecoveryWeight, bind_eq_ok_iff, passes_eq_ok_iff, orThrow_eq_ok_iff] at h
  obtain ⟨-, -, -, -, -, -, -, hbounds, row, hrow, cfg, hcfg, -, hsolo, hdb⟩ := h
  cases hdb
  exact ⟨row, cfg, hrow, hcfg, (boundsError_eq_none_iff.mp hbounds).2.1,
    soloBlockError_eq_none_iff.mp hsolo, rfl, rfl⟩

theorem setAllowSoloRecovery_spec {input : SetAllowSoloInput}
    (h : setAllowSoloRecovery db now flags input = .ok db') :
    db' = db ∨ ∃ row, db.weightRow input.badgeType input.qualifier = some row ∧
      (input.allowSoloRecovery = false →
        ∃ cfg, db.recoveryConfig = some cfg ∧ worstWeight row < worstThreshold cfg) ∧
      db' = db.updateWeightRow input.badgeType input.qualifier
        (BadgeWeight.setSolo input.allowSoloRecovery) (BadgeWeight.clash_setSolo _) := by
  simp only [setAllowSoloRecovery, bind_eq_ok_iff, passes_eq_ok_iff, orThrow_eq_ok_iff] at h
  obtain ⟨-, -, -, -, row, hrow, h⟩ := h
  split_ifs at h with hsame
  · cases h
    exact .inl rfl
  · obtain ⟨_, hcheck, hdb⟩ := bind_eq_ok_iff.mp h
    cases hdb
    refine .inr ⟨row, hrow, fun hoff => ?_, rfl⟩
    simp only [checkAllowSolo, hoff, Bool.false_eq_true, if_false, bind_eq_ok_iff] at hcheck
    obtain ⟨cfg, hcfg, hpass⟩ := hcheck
    rw [passes_eq_ok_iff, soloOffError, Option.map_eq_none_iff] at hpass
    exact ⟨cfg, orThrow_eq_ok_iff.mp hcfg, soloBlockError_eq_none_iff.mp hpass rfl⟩

theorem updateRecoveryThreshold_spec {threshold : JsNumber} {at? : Option Timestamp}
    (h : updateRecoveryThreshold db now flags threshold = .ok (db', at?)) :
    ∃ cfg, db.recoveryConfig = some cfg ∧ recoveryThresholdMin ≤ wholeNumber threshold ∧
      (∀ row ∈ db.badgeWeight, row.allowSoloRecovery = false →
        worstWeight row < wholeNumber threshold) ∧
      db' = db.updateConfig
        ((planThresholdWrite cfg.threshold (wholeNumber threshold) now).data cfg) ∧
      at? = (planThresholdWrite cfg.threshold (wholeNumber threshold) now).scheduledAt := by
  simp only [updateRecoveryThreshold, bind_eq_ok_iff, passes_eq_ok_iff, orThrow_eq_ok_iff,
    thresholdError_eq_none_iff] at h
  obtain ⟨-, -, -, hbounds, cfg, hcfg, -, hrows, hdb⟩ := h
  cases hdb
  refine ⟨cfg, hcfg, (boundsError_eq_none_iff.mp hbounds).2.1, ?_, rfl, rfl⟩
  intro row hrow hsolo
  exact hrows row (mem_findMany.mpr ⟨hrow, by simp [hsolo]⟩)

end Accepted

/-! ### Weights and threshold as time-locked settings -/

/-- A weight is lax when it is high. -/
def BadgeWeight.setting (row : BadgeWeight) : Setting ℤ where
  live := row.recoveryWeight
  pending := row.pendingRecoveryWeight
  effectiveAt := row.recoveryEffectiveAt

/-- A threshold is lax when it is low. -/
def RecoveryConfig.setting (cfg : RecoveryConfig) : Setting ℤᵒᵈ where
  live := OrderDual.toDual cfg.threshold
  pending := cfg.pendingThreshold.map OrderDual.toDual
  effectiveAt := cfg.thresholdEffectiveAt

theorem effective_weight_setting (row : BadgeWeight) (now : Timestamp) :
    row.setting.effective now = effectiveRecoveryWeight row now := by
  obtain ⟨_, _, _, _, pending, effectiveAt⟩ := row
  cases pending with
  | none => rfl
  | some pending => cases effectiveAt <;> rfl

theorem effective_threshold_setting (cfg : RecoveryConfig) (now : Timestamp) :
    cfg.setting.effective now = OrderDual.toDual (effectiveRecoveryThreshold cfg now) := by
  obtain ⟨threshold, pending, effectiveAt⟩ := cfg
  cases pending with
  | none => rfl
  | some pending =>
    cases effectiveAt with
    | none => rfl
    | some effectiveAt => exact (apply_ite OrderDual.toDual _ _ _).symm

theorem worst_weight_setting (row : BadgeWeight) : row.setting.worst = worstWeight row := by
  obtain ⟨_, _, _, _, pending, _⟩ := row
  cases pending <;> rfl

theorem worst_threshold_setting (cfg : RecoveryConfig) :
    cfg.setting.worst = OrderDual.toDual (worstThreshold cfg) := by
  obtain ⟨threshold, pending, effectiveAt⟩ := cfg
  cases pending <;> rfl

theorem scheduledAt_planRecoveryWeightWrite {live requested : Int} {now t : Timestamp}
    (h : (planRecoveryWeightWrite live requested now).scheduledAt = some t) :
    live < requested ∧ t = now + recoveryWeakenDelayMs := by
  unfold planRecoveryWeightWrite at h
  split_ifs at h with hle
  · cases h
  · cases h
    exact ⟨lt_of_not_ge hle, rfl⟩

theorem scheduledAt_planThresholdWrite {live requested : Int} {now t : Timestamp}
    (h : (planThresholdWrite live requested now).scheduledAt = some t) :
    requested < live ∧ t = now + recoveryWeakenDelayMs := by
  unfold planThresholdWrite at h
  split_ifs at h with hle
  · cases h
  · cases h
    exact ⟨lt_of_not_ge hle, rfl⟩

/-- Writing the planned weight change is a request for the weight. -/
theorem setting_planRecoveryWeightWrite (row : BadgeWeight) (requested : Int)
    (now : Timestamp) :
    ((planRecoveryWeightWrite row.recoveryWeight requested now).data row).setting =
      row.setting.request recoveryWeakenDelayMs now requested := by
  unfold planRecoveryWeightWrite Setting.request
  by_cases h : requested ≤ row.recoveryWeight
  · rw [if_pos h, if_pos (show requested ≤ row.setting.live from h)]
    rfl
  · rw [if_neg h, if_neg (show ¬requested ≤ row.setting.live from h)]
    rfl

/-- Writing the planned threshold change is a request for the threshold. -/
theorem setting_planThresholdWrite (cfg : RecoveryConfig) (requested : Int) (now : Timestamp) :
    ((planThresholdWrite cfg.threshold requested now).data cfg).setting =
      cfg.setting.request recoveryWeakenDelayMs now (OrderDual.toDual requested) := by
  unfold planThresholdWrite Setting.request
  by_cases h : requested ≥ cfg.threshold
  · rw [if_pos h, if_pos (show OrderDual.toDual requested ≤ cfg.setting.live from h)]
    rfl
  · rw [if_neg h, if_neg (show ¬OrderDual.toDual requested ≤ cfg.setting.live from h)]
    rfl

theorem effectiveRecoveryWeight_le_worstWeight (row : BadgeWeight) (now : Timestamp) :
    effectiveRecoveryWeight row now ≤ worstWeight row := by
  rw [← effective_weight_setting, ← worst_weight_setting]
  exact Setting.effective_le_worst

theorem worstThreshold_le_effectiveRecoveryThreshold (cfg : RecoveryConfig) (now : Timestamp) :
    worstThreshold cfg ≤ effectiveRecoveryThreshold cfg now := by
  have h : cfg.setting.effective now ≤ cfg.setting.worst := Setting.effective_le_worst
  rw [effective_threshold_setting, worst_threshold_setting] at h
  exact h

/-- Whatever was in a row before, the requested weight is its worst case afterwards. -/
theorem worstWeight_plan (row : BadgeWeight) (requested : Int) (now : Timestamp) :
    worstWeight ((planRecoveryWeightWrite row.recoveryWeight requested now).data row) =
      requested := by
  rw [← worst_weight_setting, setting_planRecoveryWeightWrite, Setting.worst_request]

theorem worstThreshold_plan (cfg : RecoveryConfig) (requested : Int) (now : Timestamp) :
    worstThreshold ((planThresholdWrite cfg.threshold requested now).data cfg) = requested := by
  have h := worst_threshold_setting ((planThresholdWrite cfg.threshold requested now).data cfg)
  rw [setting_planThresholdWrite, Setting.worst_request] at h
  exact (OrderDual.toDual.injective h).symm

/-! ### The editor over time -/

structure ConfigState where
  db : ConfigDb
  now : Timestamp

inductive ConfigAction
  | tick (ms : Nat)
  | updateRecoveryWeight (flags : Option SessionFlags) (input : UpdateRecoveryWeightInput)
  | setAllowSoloRecovery (flags : Option SessionFlags) (input : SetAllowSoloInput)
  | updateRecoveryThreshold (flags : Option SessionFlags) (threshold : JsNumber)

/-- The state after an action; one that threw was rolled back. -/
def ConfigState.after (s : ConfigState) : Except ActionError ConfigDb → ConfigState
  | .ok db => { s with db := db }
  | .error _ => s

def ConfigState.step (s : ConfigState) : ConfigAction → Option ConfigState
  | .tick ms => some { s with now := s.now + ms }
  | .updateRecoveryWeight flags input =>
    some (s.after ((Recovery.updateRecoveryWeight s.db s.now flags input).map Prod.fst))
  | .setAllowSoloRecovery flags input =>
    some (s.after (Recovery.setAllowSoloRecovery s.db s.now flags input))
  | .updateRecoveryThreshold flags threshold =>
    some (s.after ((Recovery.updateRecoveryThreshold s.db s.now flags threshold).map Prod.fst))

/-- The weight that an accepted call requests for a row. -/
def requestedWeight (badgeType qualifier : String) (s : ConfigState) : ConfigAction → Option Int
  | .updateRecoveryWeight flags input =>
    match updateRecoveryWeight s.db s.now flags input with
    | .ok _ => if badgeType = input.badgeType ∧ qualifier = input.qualifier then
        some (wholeNumber input.recoveryWeight) else none
    | .error _ => none
  | _ => none

/-- The threshold that an accepted call requests. -/
def requestedThreshold (s : ConfigState) : ConfigAction → Option Int
  | .updateRecoveryThreshold flags threshold =>
    match updateRecoveryThreshold s.db s.now flags threshold with
    | .ok _ => some (wholeNumber threshold)
    | .error _ => none
  | _ => none

/-- No request was accepted. -/
def Quiet (s : ConfigState) (a : ConfigAction) : Prop :=
  (∀ badgeType qualifier, requestedWeight badgeType qualifier s a = none) ∧
    requestedThreshold s a = none

/-- What a step can do. -/
inductive ConfigEffect (s : ConfigState) : ConfigAction → ConfigState → Prop
  | nothing {a} (hquiet : Quiet s a) : ConfigEffect s a s
  | tick (ms : Nat) : ConfigEffect s (.tick ms) { s with now := s.now + ms }
  | weight {flags input res row cfg}
      (haccepted : updateRecoveryWeight s.db s.now flags input = .ok res)
      (hrow : s.db.weightRow input.badgeType input.qualifier = some row)
      (hcfg : s.db.recoveryConfig = some cfg)
      (hmin : recoveryWeightMin ≤ wholeNumber input.recoveryWeight)
      (hsolo : row.allowSoloRecovery = false →
        wholeNumber input.recoveryWeight < worstThreshold cfg) :
      ConfigEffect s (.updateRecoveryWeight flags input)
        ⟨s.db.updateWeightRow input.badgeType input.qualifier
          (planRecoveryWeightWrite row.recoveryWeight (wholeNumber input.recoveryWeight)
            s.now).data (RecoveryWeightWrite.clash_data _), s.now⟩
  | solo {flags input row}
      (hrow : s.db.weightRow input.badgeType input.qualifier = some row)
      (hoff : input.allowSoloRecovery = false →
        ∃ cfg, s.db.recoveryConfig = some cfg ∧ worstWeight row < worstThreshold cfg) :
      ConfigEffect s (.setAllowSoloRecovery flags input)
        ⟨s.db.updateWeightRow input.badgeType input.qualifier
          (BadgeWeight.setSolo input.allowSoloRecovery) (BadgeWeight.clash_setSolo _), s.now⟩
  | threshold {flags threshold res cfg}
      (haccepted : updateRecoveryThreshold s.db s.now flags threshold = .ok res)
      (hcfg : s.db.recoveryConfig = some cfg)
      (hmin : recoveryThresholdMin ≤ wholeNumber threshold)
      (hrows : ∀ row ∈ s.db.badgeWeight, row.allowSoloRecovery = false →
        worstWeight row < wholeNumber threshold) :
      ConfigEffect s (.updateRecoveryThreshold flags threshold)
        ⟨s.db.updateConfig
          ((planThresholdWrite cfg.threshold (wholeNumber threshold) s.now).data cfg), s.now⟩

theorem configEffect_of_step {s s' : ConfigState} {a : ConfigAction}
    (h : s.step a = some s') : ConfigEffect s a s' := by
  cases a with
  | tick ms =>
    cases h
    exact .tick ms
  | updateRecoveryWeight flags input =>
    cases h
    cases hres : updateRecoveryWeight s.db s.now flags input with
    | error e => exact .nothing ⟨fun _ _ => by simp [requestedWeight, hres], rfl⟩
    | ok res =>
      obtain ⟨row, cfg, hrow, hcfg, hmin, hsolo, hdb, -⟩ := updateRecoveryWeight_spec hres
      simpa [Except.map, ConfigState.after, hdb] using
        ConfigEffect.weight hres hrow hcfg hmin hsolo
  | setAllowSoloRecovery flags input =>
    cases h
    have hquiet : Quiet s (.setAllowSoloRecovery flags input) := ⟨fun _ _ => rfl, rfl⟩
    cases hres : setAllowSoloRecovery s.db s.now flags input with
    | error e => exact .nothing hquiet
    | ok db =>
      rcases setAllowSoloRecovery_spec hres with rfl | ⟨row, hrow, hoff, rfl⟩
      · exact .nothing hquiet
      · exact .solo hrow hoff
  | updateRecoveryThreshold flags threshold =>
    cases h
    cases hres : updateRecoveryThreshold s.db s.now flags threshold with
    | error e => exact .nothing ⟨fun _ _ => rfl, by simp [requestedThreshold, hres]⟩
    | ok res =>
      obtain ⟨cfg, hcfg, hmin, hrows, hdb, -⟩ := updateRecoveryThreshold_spec hres
      simpa [Except.map, ConfigState.after, hdb] using
        ConfigEffect.threshold hres hcfg hmin hrows

/-! ### Reading after writing -/

section Rows

variable {db : ConfigDb} {badgeType qualifier : String} {row : BadgeWeight}
  {f : BadgeWeight → BadgeWeight} (hf : ∀ a b, clash (f a) b = clash a b)

theorem ConfigDb.mem_of_weightRow (h : db.weightRow badgeType qualifier = some row) :
    row ∈ db.badgeWeight ∧ row.badgeType = badgeType ∧ row.qualifier = qualifier := by
  have hkey := List.find?_some h
  simp only [Bool.and_eq_true, beq_iff_eq] at hkey
  exact ⟨List.mem_of_find?_eq_some h, hkey⟩

/-- There is one row for a type and a qualifier. -/
theorem ConfigDb.eq_of_weightRow (h : db.weightRow badgeType qualifier = some row)
    {other : BadgeWeight} (hother : other ∈ db.badgeWeight)
    (htype : other.badgeType = badgeType) (hqual : other.qualifier = qualifier) :
    other = row := by
  obtain ⟨hrow, htype', hqual'⟩ := ConfigDb.mem_of_weightRow h
  apply db.badgeWeight_consistent.eq_of_clash hother hrow
  simp [clash, htype, hqual, htype', hqual']

/-- The rows after an update of one row: that row updated, and the others. -/
theorem ConfigDb.forall_mem_updateWeightRow {P : BadgeWeight → Prop}
    (h : db.weightRow badgeType qualifier = some row)
    (hothers : ∀ other ∈ db.badgeWeight, P other) (hnew : P (f row)) :
    ∀ other ∈ (db.updateWeightRow badgeType qualifier f hf).badgeWeight, P other := by
  intro other hother
  obtain ⟨old, hold, rfl⟩ := mem_mapWhere.mp hother
  split_ifs with hkey
  · simp only [Bool.and_eq_true, beq_iff_eq] at hkey
    rwa [ConfigDb.eq_of_weightRow h hold hkey.1 hkey.2]
  · exact hothers old hold

theorem ConfigDb.weightRow_updateWeightRow
    (hkey : ∀ row, (f row).badgeType = row.badgeType ∧ (f row).qualifier = row.qualifier)
    (badgeType' qualifier' : String) :
    (db.updateWeightRow badgeType qualifier f hf).weightRow badgeType' qualifier' =
      (db.weightRow badgeType' qualifier').map fun row =>
        if badgeType' = badgeType ∧ qualifier' = qualifier then f row else row := by
  have hfind := find?_mapWhere (t := db.badgeWeight) (f := f)
    (p := fun row => row.badgeType == badgeType && row.qualifier == qualifier)
    (q := fun row => row.badgeType == badgeType' && row.qualifier == qualifier')
    fun row => by rw [(hkey row).1, (hkey row).2]
  refine hfind.trans (Option.map_congr fun row hrow => ?_)
  obtain ⟨-, rfl, rfl⟩ := ConfigDb.mem_of_weightRow hrow
  simp only [Bool.and_eq_true, beq_iff_eq]

end Rows

end Minister.Recovery

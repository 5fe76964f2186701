import Mathlib.Data.List.Sort
import Minister.Recovery.Config

/-!
# The quarantine of new credentials

A passkey that is added to an account which holds one already is quarantined for 72
hours. Nothing rewrites the row when the window lapses: the stored status is judged
against the clock when it is read. The gate in front of the privileged actions passes if
the account holds a passkey that is not quarantined and, where the session says which
passkey it acts with, that passkey is on the account and not quarantined.
-/

namespace Minister.Credentials

open Relational Recovery

/-! ### Status -/

inductive CredentialStatus
  | active
  | quarantined
  deriving DecidableEq, Repr

/-- The text that the status column holds. -/
def CredentialStatus.column : CredentialStatus → String
  | .active => "active"
  | .quarantined => "quarantined"

/-- `CREDENTIAL_QUARANTINE_MS`. -/
def credentialQuarantineMs : Int := 72 * 60 * 60 * 1000

def effectiveCredentialStatus (status : String) (quarantinedUntil : Option Timestamp)
    (now : Timestamp) : CredentialStatus :=
  if status ≠ "quarantined" then .active
  else
    match quarantinedUntil with
    | some untilMs => if untilMs ≤ now then .active else .quarantined
    -- no window that could lapse
    | none => .quarantined

/-- The lifecycle columns of a credential. -/
structure Lifecycle where
  status : String
  quarantinedUntil : Option Timestamp
  deriving DecidableEq, Repr

def Lifecycle.effective (l : Lifecycle) (now : Timestamp) : CredentialStatus :=
  effectiveCredentialStatus l.status l.quarantinedUntil now

/-- The first passkey of an account is active at once, every other one is quarantined. -/
def lifecycleForNewPasskey (existingPasskeyCount : Nat) (now : Timestamp) : Lifecycle :=
  if existingPasskeyCount = 0 then ⟨CredentialStatus.active.column, none⟩
  else ⟨CredentialStatus.quarantined.column, some (now + credentialQuarantineMs)⟩

/-- A quarantine with a window is over when the window is. -/
theorem effective_quarantined_eq_active_iff {untilMs now : Timestamp} :
    Lifecycle.effective ⟨CredentialStatus.quarantined.column, some untilMs⟩ now = .active ↔
      untilMs ≤ now := by
  simp only [Lifecycle.effective, effectiveCredentialStatus, CredentialStatus.column]
  by_cases h : untilMs ≤ now <;> simp [h]

/-! ### The gate -/

/-- How long a hold still lasts, rounded up. -/
def describeRemaining (untilMs now : Timestamp) : String :=
  let remaining := untilMs - now
  let hour := 60 * 60 * 1000
  let hours := (remaining + hour - 1) / hour
  let days := (remaining + 24 * hour - 1) / (24 * hour)
  if remaining ≤ 0 then "moments"
  -- one and a half hours
  else if 2 * remaining < 3 * hour then "about an hour"
  else if remaining < 48 * hour then s!"about {hours} hours"
  else s!"about {days} days"

example : describeRemaining 5400000 0 = "about 2 hours" := by decide +kernel

inductive RefusalReason
  | noActivePasskey
  | actingPasskeyUntrusted
  deriving DecidableEq, Repr

/-- A refusal. `retryAt` is the instant whose rendering the user is shown. -/
structure QuarantineRefusal where
  reason : RefusalReason
  retryAt : Option Timestamp
  canStepUp : Bool
  message : String
  deriving DecidableEq, Repr

/-- The columns of a passkey that the gate reads. -/
structure GatePasskeyRow extends Lifecycle where
  credentialID : String
  deriving DecidableEq, Repr

def noPasskeyRefusal : QuarantineRefusal where
  reason := .noActivePasskey
  retryAt := none
  canStepUp := false
  message := "This action needs a passkey on your account. Add a passkey under Settings → " ++
    "Credentials, then try again."

/-- All passkeys are in their hold; the first of the holds to lapse clears this. -/
def allQuarantinedRefusal (passkeys : List GatePasskeyRow) (now : Timestamp) :
    QuarantineRefusal :=
  let untils := (passkeys.filterMap (·.quarantinedUntil)).insertionSort (· ≤ ·)
  { reason := .noActivePasskey
    retryAt := untils.head?
    canStepUp := false
    message :=
      match untils.head? with
      | some retryAtMs =>
        let remaining := describeRemaining retryAtMs now
        "For your security, this action is paused while your newly added passkey finishes " ++
          s!"its security hold. It unlocks in {remaining}. You can keep signing in and using " ++
          "your account as usual until then."
      | none =>
        "For your security, this action is paused while your passkey is in a security hold. " ++
          "You can keep signing in and using your account as usual." }

def actingGoneRefusal : QuarantineRefusal where
  reason := .actingPasskeyUntrusted
  retryAt := none
  canStepUp := true
  message := "This session signed in with a passkey that is no longer on your account. " ++
    "Confirm with one of your current passkeys to continue."

def actingQuarantinedRefusal (acting : GatePasskeyRow) (now : Timestamp) : QuarantineRefusal where
  reason := .actingPasskeyUntrusted
  retryAt := acting.quarantinedUntil
  canStepUp := true
  message :=
    match acting.quarantinedUntil with
    | some retryAtMs =>
      let remaining := describeRemaining retryAtMs now
      "For your security, this change can't be approved by the passkey you added recently " ++
        "while it's in its security hold. Confirm with one of your other passkeys, or wait — " ++
        s!"the new passkey clears in {remaining}."
    | none =>
      "For your security, this change can't be approved by a passkey that's in a security " ++
        "hold. Confirm with one of your other passkeys."

/-- The gate; `none` lets the action proceed. -/
def evaluatePrivilegedGate (passkeys : List GatePasskeyRow) (actingCredentialId : Option String)
    (now : Timestamp) : Option QuarantineRefusal :=
  let active := passkeys.filter fun p => p.effective now = .active
  if active = [] then
    if passkeys = [] then some noPasskeyRefusal
    else some (allQuarantinedRefusal passkeys now)
  else
    match actingCredentialId with
    -- sessions from before the claim existed name no passkey
    | none => none
    | some credentialID =>
      match passkeys.find? fun p => p.credentialID = credentialID with
      | none => some actingGoneRefusal
      | some acting =>
        if acting.effective now = .quarantined then some (actingQuarantinedRefusal acting now)
        else none

/-- The session acts with a passkey on the account that is not quarantined, if it says which
passkey it acts with. -/
def ActsWithActive (passkeys : List GatePasskeyRow) (actingCredentialId : Option String)
    (now : Timestamp) : Prop :=
  ∀ credentialID, actingCredentialId = some credentialID →
    ∃ p, passkeys.find? (fun p => p.credentialID = credentialID) = some p ∧
      p.effective now = .active

section Gate

variable {passkeys : List GatePasskeyRow} {actingCredentialId : Option String} {now : Timestamp}

theorem effective_ne_quarantined_iff {l : Lifecycle} :
    l.effective now ≠ .quarantined ↔ l.effective now = .active := by
  cases l.effective now <;> simp

/-- What the gate asks for. -/
theorem evaluatePrivilegedGate_eq_none_iff :
    evaluatePrivilegedGate passkeys actingCredentialId now = none ↔
      (∃ p ∈ passkeys, p.effective now = .active) ∧
        ActsWithActive passkeys actingCredentialId now := by
  have hnone : (passkeys.filter fun p => p.effective now = .active) = [] ↔
      ¬∃ p ∈ passkeys, p.effective now = .active := by
    simp
  unfold evaluatePrivilegedGate ActsWithActive
  by_cases hactive : ∃ p ∈ passkeys, p.effective now = .active
  · simp only [hnone, not_true, hactive, if_false, true_and]
    cases actingCredentialId with
    | none => simp
    | some credentialID =>
      cases hfind : passkeys.find? fun p => p.credentialID = credentialID with
      | none => simp [hfind]
      | some acting => simp [hfind, effective_ne_quarantined_iff]
  · simp only [hnone, hactive, not_false_iff, if_true, false_and, iff_false]
    split_ifs <;> simp

/-- A session that acts with a quarantined passkey passes the gate once the window of the
passkey is over. -/
theorem untilMs_le_of_gate {p : GatePasskeyRow} {untilMs : Timestamp}
    (hpass : evaluatePrivilegedGate passkeys (some p.credentialID) now = none)
    (hfind : passkeys.find? (fun q => q.credentialID = p.credentialID) = some p)
    (hp : p.toLifecycle = ⟨CredentialStatus.quarantined.column, some untilMs⟩) :
    untilMs ≤ now := by
  obtain ⟨-, hacts⟩ := evaluatePrivilegedGate_eq_none_iff.mp hpass
  obtain ⟨q, hq, hactive⟩ := hacts p.credentialID rfl
  obtain rfl : p = q := Option.some_inj.mp (hfind.symm.trans hq)
  rw [hp] at hactive
  exact effective_quarantined_eq_active_iff.mp hactive

end Gate

/-! ### Who acts -/

/-- A session that `getCurrentSession` accepts: of a user who is neither banned nor merged
away, at the current generation. -/
structure Principal extends Recovery.Session where
  userId : UserId
  deriving DecidableEq, Repr

def requirePrincipal : Option Principal → Except ActionError Principal
  | some session => .ok session
  | none => .error (.error "Not signed in")

def rejectRecovered (session : Principal) : Except ActionError Unit :=
  ensure (!session.recovered) (.error
    ("This is a recovery session with reduced capabilities. Re-establish a passkey to manage " ++
      "credentials."))

end Minister.Credentials

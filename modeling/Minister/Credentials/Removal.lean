import Minister.Credentials.Emails
import Minister.Credentials.Passkeys

/-!
# Removing credentials side by side

`removeEmail` and `removePasskey` count what the account would be left with and delete in a later
statement, so two removals that both count before either deletes take the last two. An account keeps
what it had as long as every removal that passes its count leaves one for each removal of the
account that has passed its count before, and one more.

The sessions, the checks before the first statement and the statements of `removePasskey` are those
of the other modules; the notification of the account is left out.
-/

namespace Minister.Removal

open Relational Recovery Transition
open Credentials (Principal Passkey RemoveCall passkeysOf newPasskey)
open Emails (requireManager otherVerified isLastVerified annSession)

/-! ### Statements -/

/-- A call of `removeEmail`, by the statement it has reached. -/
inductive EmailCall
  | finding (userId : UserId) (emailId : String)
  | counting (userId : UserId) (target : UserEmail)
  | deleting (userId : UserId) (target : UserEmail)
  | removed
  | refused (e : ActionError)
  | failed (e : DbError)
  deriving DecidableEq, Repr

structure State where
  emails : List UserEmail := []
  emailCalls : List EmailCall := []
  /-- The passkeys and the removals of them. -/
  credentials : Credentials.State := {}

inductive Action
  | removeEmail (session : Option Principal) (emailId : String)
  | advanceEmail (i : Nat)
  | removePasskey (session : Option Principal) (credentialID : String)
  | advancePasskey (k : Nat)

def removeEmail (session : Option Principal) (emailId : String) : EmailCall :=
  match requireManager session with
  | .ok userId => .finding userId emailId
  | .error e => .refused e

/-- The next statement of a removal of an address. -/
def emailStep (emails : List UserEmail) : EmailCall → Option (List UserEmail × EmailCall)
  | .finding userId emailId =>
    match emails.find? fun e => e.id = emailId with
    | some target =>
      if target.userId = userId then some (emails, .counting userId target)
      else some (emails, .refused (.error "Email not found."))
    | none => some (emails, .refused (.error "Email not found."))
  | .counting userId target =>
    if isLastVerified emails userId target then
      some (emails, .refused (.error
        "You can't remove your last verified email. Add and verify another address first."))
    else some (emails, .deleting userId target)
  | .deleting _ target =>
    if emails.any fun e => e.id = target.id then
      some (deleteMany (fun e => e.id = target.id) emails, .removed)
    else some (emails, .failed .recordNotFound)
  | .removed | .refused _ | .failed _ => none

/-- The three statements of a removal with nothing in between. -/
def removeAlone (session : Option Principal) (emailId : String) (emails : List UserEmail) :
    List UserEmail × EmailCall :=
  let next := fun p : List UserEmail × EmailCall => (emailStep p.1 p.2).getD p
  next (next (next (emails, removeEmail session emailId)))

/-- A removal that is left alone does what the action does. -/
theorem removeAlone_eq (session : Option Principal) (emailId : String) (db : Db) :
    removeAlone session emailId db.userEmail =
      match Emails.removeEmail session emailId db with
      | .ok db' => (db'.userEmail, .removed)
      | .error e => (db.userEmail, .refused e) := by
  unfold removeAlone removeEmail Emails.removeEmail Emails.ownEmail
  cases requireManager session with
  | error e => rfl
  | ok userId =>
    cases hfind : db.userEmail.find? (fun e => e.id = emailId) with
    | none => simp [emailStep, hfind, orThrow, bind, Except.bind]
    | some target =>
      obtain rfl : target.id = emailId := of_decide_eq_true (List.find?_some hfind :)
      have hany : (db.userEmail.any fun e => e.id = target.id) = true :=
        List.any_eq_true.mpr ⟨target, List.mem_of_find?_eq_some hfind, decide_eq_true rfl⟩
      by_cases howner : target.userId = userId
      · cases hlast : isLastVerified db.userEmail userId target <;>
          simp [emailStep, hfind, orThrow, ensure, bind, Except.bind, howner, hlast, hany, pure,
            Except.pure]
      · simp [emailStep, hfind, orThrow, ensure, bind, Except.bind, howner]

def step (s : State) : Action → Option State
  | .removeEmail session emailId =>
    some { s with emailCalls := s.emailCalls ++ [removeEmail session emailId] }
  | .advanceEmail i => do
    let c ← s.emailCalls[i]?
    let (emails, c') ← emailStep s.emails c
    return { s with emails, emailCalls := s.emailCalls.set i c' }
  | .removePasskey session credentialID =>
    (Credentials.step s.credentials (.remove session credentialID)).map fun credentials =>
      { s with credentials }
  | .advancePasskey k =>
    (Credentials.step s.credentials (.advanceRemove k)).map fun credentials =>
      { s with credentials }

/-! ### The property -/

def isVerifiedOf (userId : UserId) (e : UserEmail) : Bool :=
  e.userId = userId && e.verifiedAt.isSome

def State.verified (s : State) (userId : UserId) : Nat := s.emails.countP (isVerifiedOf userId)

def State.passkeys (s : State) (userId : UserId) : Nat :=
  (passkeysOf userId s.credentials.passkeys).length

/-- The removal is about to delete a verified address of the account. -/
def EmailCall.takes (userId : UserId) : EmailCall → Bool
  | .deleting _ target => isVerifiedOf userId target
  | _ => false

/-- The removal is about to delete a passkey of the account. -/
def takesPasskey (userId : UserId) : RemoveCall → Bool
  | .deleting owner _ => owner = userId
  | _ => false

/-- A removal of an address that counts, and does not refuse, leaves the account more verified
addresses than removals that have counted, itself included. -/
def EmailCall.Spares (s : State) : EmailCall → Prop
  | .counting userId target => target.verifiedAt ≠ none →
    (otherVerified s.emails userId target.id).length = 0 ∨
      s.emailCalls.countP (EmailCall.takes userId) + 1 < s.verified userId
  | _ => True

/-- The same for passkeys. -/
def SparesPasskey (s : State) : RemoveCall → Prop
  | .counting userId _ => s.passkeys userId ≤ 1 ∨
    s.credentials.removals.countP (takesPasskey userId) + 1 < s.passkeys userId
  | _ => True

def Spares (s : State) : Action → Prop
  | .advanceEmail i => ∀ c ∈ s.emailCalls[i]?, c.Spares s
  | .advancePasskey k => ∀ c ∈ s.credentials.removals[k]?, SparesPasskey s c
  | .removeEmail _ _ | .removePasskey _ _ => True

instance (s : State) (c : EmailCall) : Decidable (c.Spares s) := by
  cases c <;> unfold EmailCall.Spares <;> infer_instance

instance (s : State) (c : RemoveCall) : Decidable (SparesPasskey s c) := by
  cases c <;> unfold SparesPasskey <;> infer_instance

instance (s : State) (a : Action) : Decidable (Spares s a) := by
  cases a <;> unfold Spares <;> infer_instance

/-! ### The invariant -/

/-- The address that a removal has read is as it was, if it is there. -/
def EmailCall.Knows (emails : List UserEmail) : EmailCall → Prop
  | .counting userId target | .deleting userId target =>
    target.userId = userId ∧ ∀ e ∈ emails, e.id = target.id → e = target
  | _ => True

structure Inv (userId : UserId) (hadEmail hadPasskey : Prop) (s : State) : Prop where
  emails : Consistent s.emails
  passkeys : Consistent s.credentials.passkeys
  knows : ∀ c ∈ s.emailCalls, c.Knows s.emails
  email_left : hadEmail → s.emailCalls.countP (EmailCall.takes userId) < s.verified userId
  passkey_left : hadPasskey →
    s.credentials.removals.countP (takesPasskey userId) < s.passkeys userId

section Steps

variable {s s' : State} {userId : UserId} {hadEmail hadPasskey : Prop} {i : Nat} {c c' : EmailCall}
  {emails : List UserEmail}

theorem EmailCall.Knows.sublist {emails' : List UserEmail} (h : c.Knows emails)
    (hsub : emails'.Sublist emails) : c.Knows emails' := by
  cases c with
  | counting | deleting => exact ⟨h.1, fun e he => h.2 e (hsub.subset he)⟩
  | _ => trivial

/-- What a statement of a removal of an address has to show. -/
theorem Inv.setEmail (hs : Inv userId hadEmail hadPasskey s) (hcall : s.emailCalls[i]? = some c)
    (hsub : emails.Sublist s.emails) (hknows : c'.Knows emails)
    (hleft : s.emailCalls.countP (EmailCall.takes userId) < s.verified userId →
      s.emailCalls.countP (EmailCall.takes userId) + (if c'.takes userId then 1 else 0) <
        emails.countP (isVerifiedOf userId) + if c.takes userId then 1 else 0) :
    Inv userId hadEmail hadPasskey { s with emails, emailCalls := s.emailCalls.set i c' } where
  emails := hs.emails.sublist hsub
  passkeys := hs.passkeys
  knows := forall_mem_set (fun d hd => (hs.knows d hd).sublist hsub) hknows
  email_left had := by
    have hset := countP_set (b := c') hcall (EmailCall.takes userId)
    have hlt := hleft (hs.email_left had)
    simp only [State.verified]
    omega
  passkey_left := hs.passkey_left

theorem inv_advanceEmail (hs : Inv userId hadEmail hadPasskey s)
    (hcall : s.emailCalls[i]? = some c) (hok : c.Spares s)
    (h : emailStep s.emails c = some (emails, c')) :
    Inv userId hadEmail hadPasskey { s with emails, emailCalls := s.emailCalls.set i c' } := by
  have hc : c.Knows s.emails := hs.knows c (List.mem_of_getElem? hcall)
  cases c with
  | finding owner emailId =>
    simp only [emailStep] at h
    split at h
    · rename_i target hfind
      split_ifs at h with howner
      · cases h
        refine hs.setEmail hcall (.refl _) ⟨howner, fun e he hid => ?_⟩ (fun hlt => hlt)
        -- ids are unique
        have hmem := List.mem_of_find?_eq_some hfind
        exact hs.emails.eq_of_clash he hmem (by simp [clash, hid])
      · cases h
        exact hs.setEmail hcall (.refl _) trivial fun hlt => hlt
    · cases h
      exact hs.setEmail hcall (.refl _) trivial fun hlt => hlt
  | counting owner target =>
    simp only [emailStep] at h
    split_ifs at h with hlast
    · cases h
      exact hs.setEmail hcall (.refl _) trivial fun hlt => hlt
    · cases h
      refine hs.setEmail hcall (.refl _) hc fun hlt => ?_
      by_cases htakes : isVerifiedOf userId target = true
      · simp only [isVerifiedOf, Bool.and_eq_true, decide_eq_true_eq,
          Option.isSome_iff_ne_none] at htakes
        obtain ⟨rfl, hverified⟩ := htakes
        obtain rfl := hc.1
        have hroom := (hok hverified).resolve_left fun hnone =>
          hlast (by simp [isLastVerified, hverified, hnone])
        simp [EmailCall.takes, isVerifiedOf, Option.isSome_iff_ne_none.mpr hverified]
        exact hroom
      · simpa [EmailCall.takes, htakes, State.verified] using hlt
  | deleting owner target =>
    simp only [emailStep] at h
    split_ifs at h
    · cases h
      refine hs.setEmail hcall List.filter_sublist trivial fun hlt => ?_
      have hdelete := hs.emails.countP_le_deleteMany (p := fun e => e.id = target.id)
        (q := isVerifiedOf userId) (c := isVerifiedOf userId target) (fun a _ b _ ha hb => by
          simp [clash, (of_decide_eq_true ha).trans (of_decide_eq_true hb).symm])
        fun e he hid hverified => hc.2 e he (of_decide_eq_true hid) ▸ hverified
      exact Nat.lt_of_lt_of_le hlt hdelete
    · cases h
      refine hs.setEmail hcall (.refl _) trivial fun hlt => ?_
      exact Nat.lt_of_lt_of_le hlt (Nat.le_add_right _ _)
  | removed => cases h
  | refused e => cases h
  | failed e => cases h

theorem passkeys_eq_countP (s : State) (userId : UserId) :
    s.passkeys userId = s.credentials.passkeys.countP fun p => p.userId = userId :=
  List.countP_eq_length_filter.symm

/-- What a statement of a removal of a passkey has to show. -/
theorem Inv.setPasskey (hs : Inv userId hadEmail hadPasskey s) {c c' : RemoveCall}
    {passkeys : List Passkey} (hcall : s.credentials.removals[i]? = some c)
    (hsub : passkeys.Sublist s.credentials.passkeys)
    (hleft : s.credentials.removals.countP (takesPasskey userId) < s.passkeys userId →
      s.credentials.removals.countP (takesPasskey userId) +
          (if takesPasskey userId c' then 1 else 0) <
        (passkeys.countP fun p => p.userId = userId) + if takesPasskey userId c then 1 else 0) :
    Inv userId hadEmail hadPasskey { s with credentials := { s.credentials with
      passkeys, removals := s.credentials.removals.set i c' } } where
  emails := hs.emails
  passkeys := hs.passkeys.sublist hsub
  knows := hs.knows
  email_left := hs.email_left
  passkey_left had := by
    have hset := countP_set (b := c') hcall (takesPasskey userId)
    have hlt := hleft (hs.passkey_left had)
    rw [passkeys_eq_countP]
    dsimp only
    omega

theorem inv_advancePasskey {passkeys : List Passkey} {c c' : RemoveCall}
    (hs : Inv userId hadEmail hadPasskey s) (hcall : s.credentials.removals[i]? = some c)
    (hok : SparesPasskey s c) (h : s.credentials.removeStep c = some (passkeys, c')) :
    Inv userId hadEmail hadPasskey { s with credentials := { s.credentials with
      passkeys, removals := s.credentials.removals.set i c' } } := by
  -- a statement that neither deletes nor passes the count
  have hstay (c' : RemoveCall) (hc' : takesPasskey userId c' = false) :
      Inv userId hadEmail hadPasskey { s with credentials := { s.credentials with
        removals := s.credentials.removals.set i c' } } := by
    refine hs.setPasskey hcall (.refl _) fun hlt => ?_
    rw [passkeys_eq_countP] at hlt
    simp only [hc', Bool.false_eq_true, if_false]
    omega
  cases c with
  | finding owner credentialID =>
    simp only [Credentials.State.removeStep] at h
    split_ifs at h <;> cases h <;> exact hstay _ rfl
  | counting owner credentialID =>
    simp only [Credentials.State.removeStep] at h
    split_ifs at h with hlast
    · cases h
      exact hstay _ rfl
    · cases h
      refine hs.setPasskey hcall (.refl _) fun hlt => ?_
      rw [passkeys_eq_countP] at hlt
      by_cases howner : owner = userId
      · obtain rfl := howner
        have hroom := hok.resolve_left hlast
        rw [passkeys_eq_countP] at hroom
        simpa [takesPasskey] using hroom
      · simpa [takesPasskey, howner] using hlt
  | deleting owner credentialID =>
    simp only [Credentials.State.removeStep] at h
    split_ifs at h
    · cases h
      refine hs.setPasskey hcall List.filter_sublist fun hlt => ?_
      rw [passkeys_eq_countP] at hlt
      have hdelete := hs.passkeys.countP_le_deleteMany (q := fun p => p.userId = userId)
        (p := fun p => p.userId = owner ∧ p.credentialID = credentialID)
        (c := takesPasskey userId (.deleting owner credentialID))
        (fun a _ b _ ha hb => by
          simp [clash, (of_decide_eq_true ha).2.trans (of_decide_eq_true hb).2.symm])
        fun p _ hp hq => decide_eq_true
          ((of_decide_eq_true hp).1.symm.trans (of_decide_eq_true hq))
      exact Nat.lt_of_lt_of_le hlt hdelete
    · cases h
      exact hstay _ rfl
  | removed => cases h
  | refused e => cases h
  | failed e => cases h

theorem takes_removeEmail (userId : UserId) (session : Option Principal) (emailId : String) :
    (removeEmail session emailId).takes userId = false ∧
      ∀ emails, (removeEmail session emailId).Knows emails := by
  rw [removeEmail]
  split <;> exact ⟨rfl, fun _ => trivial⟩

theorem takesPasskey_removePasskey (session : Option Principal) (credentialID : String) :
    takesPasskey userId (Credentials.removePasskey session credentialID) = false := by
  rw [Credentials.removePasskey]
  split <;> rfl

theorem inv_step {a : Action} (hs : Inv userId hadEmail hadPasskey s) (hok : Spares s a)
    (h : step s a = some s') : Inv userId hadEmail hadPasskey s' := by
  cases a with
  | removeEmail session emailId =>
    cases h
    obtain ⟨htakes, hknows⟩ := takes_removeEmail userId session emailId
    refine ⟨hs.emails, hs.passkeys, forall_mem_concat hs.knows (hknows _), fun had => ?_,
      hs.passkey_left⟩
    simpa [htakes, State.verified] using hs.email_left had
  | advanceEmail i =>
    simp only [step, Option.bind_eq_bind, Option.bind_eq_some_iff] at h
    obtain ⟨c, hcall, ⟨emails, c'⟩, hnext, hdone⟩ := h
    cases hdone
    exact inv_advanceEmail hs hcall (hok c hcall) hnext
  | removePasskey session credentialID =>
    cases h
    refine ⟨hs.emails, hs.passkeys, hs.knows, hs.email_left, fun had => ?_⟩
    simpa [takesPasskey_removePasskey, State.passkeys] using hs.passkey_left had
  | advancePasskey k =>
    simp only [step, Credentials.step, Option.bind_eq_bind, Option.map_eq_some_iff,
      Option.bind_eq_some_iff] at h
    obtain ⟨credentials, ⟨c, hcall, ⟨passkeys, c'⟩, hnext, hcredentials⟩, rfl⟩ := h
    cases hcredentials
    exact inv_advancePasskey hs hcall (hok c hcall) hnext

end Steps

/-! ### Whole runs -/

/-- No removal is under way. -/
structure State.Initial (s : State) : Prop where
  emails : Consistent s.emails
  passkeys : Consistent s.credentials.passkeys
  emailCalls : s.emailCalls = []
  removals : s.credentials.removals = []

theorem State.Initial.inv {s : State} (h : s.Initial) (userId : UserId) :
    Inv userId (0 < s.verified userId) (0 < s.passkeys userId) s where
  emails := h.emails
  passkeys := h.passkeys
  knows := by simp [h.emailCalls]
  email_left had := by simpa [h.emailCalls] using had
  passkey_left had := by simpa [h.removals] using had

/-- No account loses its last verified address or its last passkey to removals that spare one. -/
theorem kept_of_run {s s' : State} {as : List Action} (hs : s.Initial)
    (hok : Along step Spares s as) (hrun : run step s as = some s') (userId : UserId) :
    (0 < s.verified userId → 0 < s'.verified userId) ∧
      (0 < s.passkeys userId → 0 < s'.passkeys userId) := by
  have hinv : Inv userId (0 < s.verified userId) (0 < s.passkeys userId) s' :=
    run_invariant _ (fun _ _ _ hs hok h => inv_step hs hok h) (hs.inv userId) hok hrun
  exact ⟨fun had => Nat.zero_lt_of_lt (hinv.email_left had),
    fun had => Nat.zero_lt_of_lt (hinv.passkey_left had)⟩

/-- An account with two verified addresses and two passkeys. -/
def twoOfEach : State where
  emails := [⟨"cmail00001", "cann000001", "ann@example.com", some 0, true⟩,
    ⟨"cmail00002", "cann000001", "ann@example.org", some 0, false⟩]
  credentials.passkeys :=
    [newPasskey ⟨"laptop", "cann000001"⟩ 0 0, newPasskey ⟨"phone", "cann000001"⟩ 1 0]

theorem twoOfEach_initial : twoOfEach.Initial where
  emails := by decide
  passkeys := by decide
  emailCalls := rfl
  removals := rfl

/-- Both addresses and both passkeys, the second removal of a kind once the first is done. -/
def oneAfterTheOther : List Action :=
  [.removeEmail (some annSession) "cmail00001", .advanceEmail 0, .advanceEmail 0, .advanceEmail 0,
    .removeEmail (some annSession) "cmail00002", .advanceEmail 1, .advanceEmail 1,
    .removePasskey (some annSession) "laptop", .advancePasskey 0, .advancePasskey 0,
    .advancePasskey 0, .removePasskey (some annSession) "phone", .advancePasskey 1,
    .advancePasskey 1]

theorem oneAfterTheOther_kept : ∃ s, run step twoOfEach oneAfterTheOther = some s ∧
    0 < s.verified "cann000001" ∧ 0 < s.passkeys "cann000001" := by
  obtain ⟨s, hrun⟩ := Option.isSome_iff_exists.mp
    (by decide +kernel : (run step twoOfEach oneAfterTheOther).isSome = true)
  obtain ⟨hemail, hpasskey⟩ :=
    kept_of_run twoOfEach_initial (by decide +kernel) hrun "cann000001"
  exact ⟨s, hrun, hemail (by decide), hpasskey (by decide)⟩

/-- The same removals, each pair side by side: both count before either deletes. -/
def sideBySide : List Action :=
  [.removeEmail (some annSession) "cmail00001", .removeEmail (some annSession) "cmail00002",
    .advanceEmail 0, .advanceEmail 1, .advanceEmail 0, .advanceEmail 1, .advanceEmail 0,
    .advanceEmail 1, .removePasskey (some annSession) "laptop",
    .removePasskey (some annSession) "phone", .advancePasskey 0, .advancePasskey 1,
    .advancePasskey 0, .advancePasskey 1, .advancePasskey 0, .advancePasskey 1]

theorem sideBySide_none : twoOfEach.verified "cann000001" = 2 ∧
    twoOfEach.passkeys "cann000001" = 2 ∧
    ∃ s, run step twoOfEach sideBySide = some s ∧
      s.verified "cann000001" = 0 ∧ s.passkeys "cann000001" = 0 :=
  ⟨by decide, by decide, exists_run (by decide +kernel)⟩

end Minister.Removal

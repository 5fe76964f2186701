import Minister.Oidc.Consent
import Minister.Transition.Pool
import Minister.Transition.Run

/-!
# Grants under concurrent consents

An approved consent runs a transaction: it inserts the authorization code, reads the grant of
the user at the client, writes the grant with what was disclosed added, and commits. Under
READ COMMITTED the read sees what is committed at that moment and takes no lock; the write
takes the lock of the row, which is held until the commit, and replaces the columns by values
computed from the read.

Two consents of one user at one client that both read before either writes therefore leave
only what the second one disclosed. Where every write finds the grant that the transaction
read, the grant holds everything that was disclosed.
-/

namespace Minister.Oidc

namespace Grants

open Relational Transition

/-! ### What a grant holds -/

/-- Everything in the second grant is in the first. -/
structure Covers (g d : OidcGrantFields) : Prop where
  badgeTypes : ∀ x ∈ d.badgeTypes, x ∈ g.badgeTypes
  badgeIds : ∀ x ∈ d.badgeIds, x ∈ g.badgeIds
  profileName : d.profileName = true → g.profileName = true
  profileAvatar : d.profileAvatar = true → g.profileAvatar = true
  sybilScore : d.sybilScore = true → g.sybilScore = true

theorem Covers.trans {f g d : OidcGrantFields} (h : Covers f g) (h' : Covers g d) :
    Covers f d where
  badgeTypes x hx := h.badgeTypes x (h'.badgeTypes x hx)
  badgeIds x hx := h.badgeIds x (h'.badgeIds x hx)
  profileName hd := h.profileName (h'.profileName hd)
  profileAvatar hd := h.profileAvatar (h'.profileAvatar hd)
  sybilScore hd := h.sybilScore (h'.sybilScore hd)

/-- What `upsertGrant` writes: it creates the row with the flags of this consent, and updates
it with the flags it read added. -/
def grantWrite (existing : Option OidcGrantFields) (stored : Bool) (disclosed : OidcGrantFields) :
    OidcGrantFields :=
  let read := existing.getD emptyGrant
  { badgeTypes := unionTypes read.badgeTypes disclosed.badgeTypes
    badgeIds := unionTypes read.badgeIds disclosed.badgeIds
    profileName := (stored && read.profileName) || disclosed.profileName
    profileAvatar := (stored && read.profileAvatar) || disclosed.profileAvatar
    sybilScore := (stored && read.sybilScore) || disclosed.sybilScore }

def setFields (fields : OidcGrantFields) (g : OidcGrant) : OidcGrant := { g with fields := fields }

/-- `oidcGrant.upsert`. -/
def writeGrant (grants : List OidcGrant) (freshId : String) (userId : UserId)
    (clientId : ClientId) (fields : OidcGrantFields) : Except DbError (List OidcGrant) :=
  match findGrant grants userId clientId with
  | none => create ⟨freshId, userId, clientId, fields⟩ grants
  | some _ =>
    update (fun g => g.userId = userId ∧ g.clientId = clientId) (setFields fields) grants

/-- Read and write in one go are the `upsertGrant` of a consent that runs alone. -/
theorem upsertGrant_eq (grants : List OidcGrant) (freshId : String) (userId : UserId)
    (clientId : ClientId) (disclosed : OidcGrantFields) :
    upsertGrant grants freshId userId clientId disclosed =
      writeGrant grants freshId userId clientId
        (grantWrite ((findGrant grants userId clientId).map (·.fields))
          (findGrant grants userId clientId).isSome disclosed) := by
  unfold upsertGrant writeGrant grantWrite loadGrant
  cases findGrant grants userId clientId with
  | none => rfl
  | some g => rfl

section Writing

variable {existing : Option OidcGrantFields} {stored : Bool} {disclosed : OidcGrantFields}
  {grants grants' : List OidcGrant} {freshId : String} {userId : UserId} {clientId : ClientId}
  {fields : OidcGrantFields}

theorem mem_unionTypes {a b : List String} {x : String} :
    x ∈ unionTypes a b ↔ x ∈ a ∨ x ∈ b := by
  simp [unionTypes, distinct]

/-- The write holds what this consent disclosed. -/
theorem covers_grantWrite : Covers (grantWrite existing stored disclosed) disclosed where
  badgeTypes x hx := mem_unionTypes.mpr (.inr hx)
  badgeIds x hx := mem_unionTypes.mpr (.inr hx)
  profileName h := by simp [grantWrite, h]
  profileAvatar h := by simp [grantWrite, h]
  sybilScore h := by simp [grantWrite, h]

/-- And what it read, where there was a row to read. -/
theorem covers_grantWrite_read {read : OidcGrantFields} :
    Covers (grantWrite (some read) true disclosed) read where
  badgeTypes x hx := mem_unionTypes.mpr (.inl hx)
  badgeIds x hx := mem_unionTypes.mpr (.inl hx)
  profileName h := by simp [grantWrite, h]
  profileAvatar h := by simp [grantWrite, h]
  sybilScore h := by simp [grantWrite, h]

variable (h : writeGrant grants freshId userId clientId fields = .ok grants')

include h

theorem consistent_writeGrant : Consistent grants' := by
  unfold writeGrant at h
  split at h
  · obtain ⟨hcons, rfl⟩ := create_eq_ok_iff.mp h
    exact hcons
  · obtain ⟨-, hcons, rfl⟩ := update_eq_ok_iff.mp h
    exact hcons

/-- After the write the grant is what was written. -/
theorem findGrant_writeGrant_self :
    ∃ g, findGrant grants' userId clientId = some g ∧ g.fields = fields := by
  unfold writeGrant at h
  split at h
  · rename_i hnone
    obtain ⟨-, rfl⟩ := create_eq_ok_iff.mp h
    refine ⟨⟨freshId, userId, clientId, fields⟩, ?_, rfl⟩
    unfold findGrant at hnone ⊢
    rw [List.find?_append, hnone, Option.none_or]
    simp
  · rename_i g hsome
    obtain ⟨-, -, rfl⟩ := update_eq_ok_iff.mp h
    refine ⟨setFields fields g, ?_, rfl⟩
    have hmatch := List.find?_some hsome
    unfold findGrant at hsome ⊢
    rw [find?_mapWhere (f := setFields fields) fun _ => rfl, hsome, Option.map_some,
      if_pos hmatch]

/-- The grants of other users and clients stay. -/
theorem findGrant_writeGrant_other {userId' : UserId} {clientId' : ClientId}
    (hne : (userId, clientId) ≠ (userId', clientId')) :
    findGrant grants' userId' clientId' = findGrant grants userId' clientId' := by
  have hother : ¬(userId = userId' ∧ clientId = clientId') :=
    fun heq => hne (Prod.ext heq.1 heq.2)
  unfold writeGrant at h
  split at h
  · obtain ⟨-, rfl⟩ := create_eq_ok_iff.mp h
    unfold findGrant
    rw [List.find?_append, List.find?_singleton, if_neg (by simpa using hother), Option.or_none]
  · obtain ⟨-, -, rfl⟩ := update_eq_ok_iff.mp h
    unfold findGrant
    rw [find?_mapWhere (f := setFields fields) fun _ => rfl]
    cases hfind : grants.find? fun g => g.userId = userId' ∧ g.clientId = clientId' with
    | none => rfl
    | some g =>
      have hkey : g.userId = userId' ∧ g.clientId = clientId' := by
        have hmatch := List.find?_some hfind
        exact of_decide_eq_true hmatch
      rw [Option.map_some, if_neg]
      simp only [decide_eq_true_eq]
      rintro ⟨rfl, rfl⟩
      exact hother hkey

end Writing

/-! ### The calls -/

/-- An approval that has passed its checks. The statements before the transaction run at
different times; `view` is what they returned. -/
structure Approval where
  env : ConsentEnv
  userId : UserId
  input : ApproveInput
  request : ValidAuthorizeRequest
  persona : Persona
  view : ConsentDb

/-- The authorization code that the transaction creates. -/
def Approval.code (t : Approval) : AuthorizationCode :=
  newCode t.env t.userId t.input t.request t.view

/-- The badges that the code discloses. -/
def Approval.badges (t : Approval) : List Policy.UserBadge :=
  disclosedBadges t.env t.userId t.input t.request t.view

/-- What `upsertGrant` is called with. -/
def Approval.disclosed (t : Approval) : OidcGrantFields :=
  disclosedFields t.env t.userId t.input t.request t.view

/-- The grant row it is about. -/
def Approval.key (t : Approval) : UserId × ClientId := (t.userId, t.request.clientId)

/-- The part of `approveConsent` before its transaction. -/
def prepare (env : ConsentEnv) (session : Option UserId) (input : ApproveInput)
    (view : ConsentDb) : Except ConsentResult Approval :=
  match session with
  | none => .error (.error "Not signed in")
  | some userId =>
    match input.issue with
    | some message => .error (.error message)
    | none =>
      match env.verifyOidcRequest input.requestToken with
      | none =>
        .error (.error
          "This consent request expired or has been tampered with. Reload and try again.")
      | some request =>
        match normalizeProfileInput env
            (if approvesName input request then input.nameValue.getD "" else "")
            (if approvesAvatar input request then input.avatarValue.getD "" else "") with
        | .error message => .error (.error message)
        | .ok persona => .ok ⟨env, userId, input, request, persona, view⟩

/-- A call that runs alone prepares its transaction and runs it. -/
theorem approveConsent_eq (env : ConsentEnv) (session : Option UserId) (input : ApproveInput)
    (db : ConsentDb) :
    approveConsent env session input db =
      match prepare env session input db with
      | .error result => .ok (db, result)
      | .ok t => do
        let db' ← stmt (recordConsent t.env t.userId t.input t.request t.view t.persona)
        return (db', consentResult t.env t.userId t.request t.view) := by
  unfold approveConsent prepare
  cases session with
  | none => rfl
  | some userId =>
    cases input.issue with
    | some message => rfl
    | none =>
      cases env.verifyOidcRequest input.requestToken with
      | none => rfl
      | some request =>
        simp only
        generalize normalizeProfileInput env _ _ = persona
        cases persona <;> rfl

/-- A call of `approveConsent`, by what it does next. -/
inductive ApproveCall
  /-- Insert the authorization code. -/
  | creating (t : Approval)
  /-- Read the grant. -/
  | reading (t : Approval)
  /-- Write the grant. -/
  | upserting (t : Approval) (existing : Option OidcGrantFields)
  /-- Write the persona and commit. The lock of the grant row also keeps other consents of
  the user from the persona at this client. -/
  | committing (t : Approval) (fields : OidcGrantFields)
  | committed (t : Approval)
  /-- The transaction was rolled back. -/
  | aborted
  /-- The checks ended the call. -/
  | answered (result : ConsentResult)

/-- The grant row whose lock the call holds. -/
def ApproveCall.holds : ApproveCall → Option (UserId × ClientId)
  | .committing t _ => some t.key
  | _ => none

/-- The approval that the call has committed. -/
def ApproveCall.approval : ApproveCall → Option Approval
  | .committed t => some t
  | _ => none

structure State where
  db : ConsentDb
  calls : List ApproveCall := []

/-- The stored grant that an approval is about. -/
def State.grant (s : State) (t : Approval) : Option OidcGrantFields :=
  (findGrant s.db.oidcGrant t.userId t.request.clientId).map (·.fields)

def State.setCall (s : State) (i : Nat) (c : ApproveCall) : State :=
  { s with calls := s.calls.set i c }

/-- The writes of a transaction become visible together. -/
def commit (t : Approval) (fields : OidcGrantFields) (db : ConsentDb) :
    Except DbError ConsentDb := do
  let codes ← create t.code db.oidcAuthorizationCode
  let grants ← writeGrant db.oidcGrant t.env.freshId t.userId t.request.clientId fields
  let overrides ← recordPersona t.userId t.input t.request db t.persona
  return { db with
    oidcAuthorizationCode := codes
    oidcGrant := grants
    oidcProfileOverride := overrides }

/-- The next statement of a call. -/
def State.callStep (s : State) : ApproveCall → Option (ConsentDb × ApproveCall)
  | .creating t => some (s.db, .reading t)
  | .reading t => some (s.db, .upserting t (s.grant t))
  | .upserting t existing =>
    -- another transaction has written the row and not committed: wait for it
    if t.key ∈ s.calls.filterMap ApproveCall.holds then none
    else some (s.db, .committing t (grantWrite existing (s.grant t).isSome t.disclosed))
  | .committing t fields =>
    match commit t fields s.db with
    | .ok db => some (db, .committed t)
    | .error _ => some (s.db, .aborted)
  | .committed _ => none
  | .aborted => none
  | .answered _ => none

inductive Action
  /-- `approveConsent` is called, and the statements before its transaction return `view`. -/
  | approve (env : ConsentEnv) (session : Option UserId) (input : ApproveInput)
      (view : ConsentDb)
  /-- A call runs its next statement. -/
  | advance (i : Nat)
  /-- The transaction of a call is lost. -/
  | abort (i : Nat)

def startCall (env : ConsentEnv) (session : Option UserId) (input : ApproveInput)
    (view : ConsentDb) : ApproveCall :=
  match prepare env session input view with
  | .ok t => .creating t
  | .error result => .answered result

def step (s : State) : Action → Option State
  | .approve env session input view =>
    some { s with calls := s.calls ++ [startCall env session input view] }
  | .advance i => do
    let c ← s.calls[i]?
    let (db, c') ← s.callStep c
    return { db := db, calls := s.calls.set i c' }
  | .abort i => do
    let c ← s.calls[i]?
    match c with
    | .committed _ => none
    | .answered _ => none
    | _ => return s.setCall i .aborted

/-! ### What a step can do -/

/-- What a step can do to the grants, the codes and the calls. -/
inductive Effect (s : State) (a : Action) : State → Prop
  | approve (c : ApproveCall) (hholds : c.holds = none) (hopen : c.approval = none) :
      Effect s a { s with calls := s.calls ++ [c] }
  /-- A call that has not written yet, or gives up. -/
  | move (i : Nat) (c c' : ApproveCall) (hcall : s.calls[i]? = some c) (hholds : c'.holds = none)
      (hopen : c'.approval = none) : Effect s a (s.setCall i c')
  | upsert (i : Nat) (haction : a = .advance i) (t : Approval)
      (existing : Option OidcGrantFields) (hcall : s.calls[i]? = some (.upserting t existing))
      (hfree : t.key ∉ s.calls.filterMap ApproveCall.holds) :
      Effect s a (s.setCall i
        (.committing t (grantWrite existing (s.grant t).isSome t.disclosed)))
  | commit (i : Nat) (t : Approval) (fields : OidcGrantFields) (db : ConsentDb)
      (hcall : s.calls[i]? = some (.committing t fields))
      (hcommit : Grants.commit t fields s.db = .ok db) :
      Effect s a { db := db, calls := s.calls.set i (.committed t) }

section Effects

variable {s s' : State} {a : Action}

theorem effect_of_callStep {i : Nat} {c c' : ApproveCall} {db : ConsentDb}
    (hcall : s.calls[i]? = some c) (h : s.callStep c = some (db, c')) :
    Effect s (.advance i) { db := db, calls := s.calls.set i c' } := by
  cases c with
  | creating | reading =>
    cases h
    exact .move i _ _ hcall rfl rfl
  | upserting t existing =>
    simp only [State.callStep] at h
    split_ifs at h with hheld
    cases h
    exact .upsert i rfl t existing hcall hheld
  | committing t fields =>
    simp only [State.callStep] at h
    split at h <;> cases h
    · rename_i hcommit
      exact .commit i t fields _ hcall hcommit
    · exact .move i _ _ hcall rfl rfl
  | committed t => cases h
  | aborted => cases h
  | answered result => cases h

theorem effect_of_step (h : step s a = some s') : Effect s a s' := by
  cases a with
  | approve env session input view =>
    cases h
    unfold startCall
    split
    · exact .approve _ rfl rfl
    · exact .approve _ rfl rfl
  | advance i =>
    simp only [step, Option.bind_eq_bind, Option.bind_eq_some_iff] at h
    obtain ⟨c, hcall, ⟨db, c'⟩, hnext, hs'⟩ := h
    cases hs'
    exact effect_of_callStep hcall hnext
  | abort i =>
    simp only [step, Option.bind_eq_bind, Option.bind_eq_some_iff] at h
    obtain ⟨c, hcall, hs'⟩ := h
    split at hs' <;> cases hs'
    exact .move i c .aborted hcall rfl rfl

end Effects

/-! ### Grants that are remembered -/

/-- The approval whose grant a step writes, and what its transaction read. -/
def State.upserts (s : State) : Action → Option (Approval × Option OidcGrantFields)
  | .advance i =>
    match s.calls[i]? with
    | some (.upserting t existing) => some (t, existing)
    | _ => none
  | _ => none

/-- The grant that a write is about to replace is the one that the transaction read. -/
def ReadIsCurrent (s : State) (a : Action) : Prop :=
  ∀ u ∈ s.upserts a, s.grant u.1 = u.2

instance (s : State) (a : Action) : Decidable (ReadIsCurrent s a) :=
  inferInstanceAs (Decidable (∀ u ∈ s.upserts a, _))

/-- What a call that has written or committed can rely on. -/
def CallOk (s : State) : ApproveCall → Prop
  | .committing t fields =>
    Covers fields t.disclosed ∧ ∀ stored, s.grant t = some stored → Covers fields stored
  | .committed t =>
    t.code ∈ s.db.oidcAuthorizationCode ∧
      ∃ stored, s.grant t = some stored ∧ Covers stored t.disclosed
  | _ => True

/-- No two calls hold the lock of one row, and what they have written covers what is stored. -/
structure Remembered (s : State) : Prop where
  grants : Consistent s.db.oidcGrant
  locks : (s.calls.filterMap ApproveCall.holds).Nodup
  calls : ∀ c ∈ s.calls, CallOk s c

/-- No call is in progress. -/
structure State.Initial (s : State) : Prop where
  grants : Consistent s.db.oidcGrant
  calls : s.calls = []

theorem State.Initial.remembered {s : State} (h : s.Initial) : Remembered s where
  grants := h.grants
  locks := by
    rw [h.calls]
    exact List.nodup_nil
  calls := by
    rw [h.calls]
    exact fun c hc => absurd hc List.not_mem_nil

section Steps

variable {s s' : State} {a : Action} {t : Approval} {fields : OidcGrantFields} {db : ConsentDb}

theorem callOk_of_open {c : ApproveCall} (hholds : c.holds = none) (hopen : c.approval = none) :
    CallOk s c := by
  cases c with
  | committing t fields => cases hholds
  | committed t => cases hopen
  | _ => trivial

/-- The tables after a commit. -/
theorem commit_eq_ok (h : commit t fields s.db = .ok db) :
    db.oidcAuthorizationCode = s.db.oidcAuthorizationCode ++ [t.code] ∧
      writeGrant s.db.oidcGrant t.env.freshId t.userId t.request.clientId fields =
        .ok db.oidcGrant := by
  simp only [commit, bind_eq_ok_iff] at h
  obtain ⟨codes, hcodes, grants, hgrants, overrides, -, hout⟩ := h
  cases hout
  exact ⟨(create_eq_ok_iff.mp hcodes).2.symm, hgrants⟩

/-- A write that found the grant it read covers the stored grant. -/
theorem covers_stored {existing : Option OidcGrantFields} (hcurrent : s.grant t = existing)
    (stored : OidcGrantFields) (hstored : s.grant t = some stored) :
    Covers (grantWrite existing (s.grant t).isSome t.disclosed) stored := by
  rw [← hcurrent, hstored]
  exact covers_grantWrite_read

theorem Remembered.step (h : Effect s a s') (hok : ReadIsCurrent s a) (hinv : Remembered s) :
    Remembered s' := by
  cases h with
  | approve c hholds hopen =>
    refine ⟨hinv.grants, ?_, fun d hd => ?_⟩
    · rw [List.filterMap_append, List.filterMap_cons_none hholds, List.filterMap_nil,
        List.append_nil]
      exact hinv.locks
    · rcases List.mem_append.mp hd with hold | hnew
      · exact hinv.calls d hold
      · rw [List.mem_singleton.mp hnew]
        exact callOk_of_open hholds hopen
  | move i c c' hcall hholds hopen =>
    exact ⟨hinv.grants, hinv.locks.sublist (filterMap_set_sublist hcall (.inr hholds)),
      forall_mem_set hinv.calls (callOk_of_open hholds hopen)⟩
  | upsert i haction t existing hcall hfree =>
    have hcurrent : s.grant t = existing :=
      hok (t, existing) (by rw [haction, State.upserts, hcall]; rfl)
    refine ⟨hinv.grants, ?_, forall_mem_set hinv.calls ⟨covers_grantWrite, ?_⟩⟩
    · have hperm := perm_filterMap_set_take (f := ApproveCall.holds)
        (b := .committing t (grantWrite existing (s.grant t).isSome t.disclosed)) hcall rfl rfl
      exact hperm.nodup_iff.mpr (List.nodup_cons.mpr ⟨hfree, hinv.locks⟩)
    · exact covers_stored hcurrent
  | commit i t fields db hcall hcommit =>
    obtain ⟨hcodes, hwrite⟩ := commit_eq_ok hcommit
    obtain ⟨hdisclosed, hstored⟩ := hinv.calls _ (List.mem_of_getElem? hcall)
    obtain ⟨g, hfound, hfields⟩ := findGrant_writeGrant_self hwrite
    refine ⟨consistent_writeGrant hwrite,
      hinv.locks.sublist (filterMap_set_sublist hcall (.inr rfl)), ?_⟩
    refine forall_mem_set_of_nodup (f := ApproveCall.holds) hcall hinv.locks ?_ ?_
    · intro d hd hother
      cases d with
      | committing t' fields' =>
        -- another row: the lock of this one is held by the call that commits
        have hne : (t.userId, t.request.clientId) ≠ (t'.userId, t'.request.clientId) :=
          fun heq => hother t'.key rfl (congrArg some heq)
        obtain ⟨hdisclosed', hstored'⟩ := hinv.calls _ hd
        refine ⟨hdisclosed', fun stored hs => hstored' stored ?_⟩
        rwa [State.grant, findGrant_writeGrant_other hwrite hne] at hs
      | committed t' =>
        obtain ⟨hcode, stored, hs, hcovers⟩ := hinv.calls _ hd
        refine ⟨hcodes ▸ List.mem_append_left _ hcode, ?_⟩
        by_cases hkey : (t.userId, t.request.clientId) = (t'.userId, t'.request.clientId)
        · obtain ⟨huser, hclient⟩ := Prod.mk.inj hkey
          refine ⟨fields, ?_, (hstored stored ?_).trans hcovers⟩
          · rw [State.grant, ← huser, ← hclient, hfound, Option.map_some, hfields]
          · rw [State.grant, huser, hclient]
            exact hs
        · refine ⟨stored, ?_, hcovers⟩
          rw [State.grant, findGrant_writeGrant_other hwrite hkey]
          exact hs
      | _ => trivial
    · refine ⟨hcodes ▸ List.mem_append_right _ (List.mem_singleton.mpr rfl), fields, ?_,
        hdisclosed⟩
      rw [State.grant, hfound, Option.map_some, hfields]

end Steps

/-- The grant holds what the authorization code of the approval discloses. -/
structure Remembers (fields : OidcGrantFields) (t : Approval) : Prop where
  badgeIds : ∀ id ∈ t.code.snapshot.approvedBadgeIds, id ∈ fields.badgeIds
  badgeTypes : ∀ b ∈ t.badges, b.type ∈ fields.badgeTypes
  profileName : t.code.snapshot.profileName = true → fields.profileName = true
  profileAvatar : t.code.snapshot.profileAvatar = true → fields.profileAvatar = true
  sybilScore : t.code.snapshot.sybilScore = true → fields.sybilScore = true

theorem Covers.remembers {fields : OidcGrantFields} {t : Approval}
    (h : Covers fields t.disclosed) : Remembers fields t where
  badgeIds := h.badgeIds
  badgeTypes b hb := h.badgeTypes b.type (by
    simp only [Approval.disclosed, disclosedFields, distinct, List.mem_eraseDups]
    exact List.mem_map_of_mem hb)
  profileName := h.profileName
  profileAvatar := h.profileAvatar
  sybilScore := h.sybilScore

/-- **Disclosures are remembered.** In every run in which each write of a grant finds the grant
that its transaction read, a consent that has committed has stored its code, and the grant of
the user at the client holds what the code discloses. -/
theorem remembered_of_run {s₀ s : State} {as : List Action} (h₀ : s₀.Initial)
    (hcurrent : Along step ReadIsCurrent s₀ as) (hrun : run step s₀ as = some s) :
    ∀ t, .committed t ∈ s.calls → t.code ∈ s.db.oidcAuthorizationCode ∧
      ∃ g, findGrant s.db.oidcGrant t.userId t.request.clientId = some g ∧
        Remembers g.fields t := by
  have hinv : Remembered s :=
    run_invariant Remembered (fun _ _ _ hinv hok hstep => hinv.step (effect_of_step hstep) hok)
      h₀.remembered hcurrent hrun
  intro t ht
  obtain ⟨hcode, stored, hstored, hcovers⟩ := hinv.calls _ ht
  obtain ⟨g, hfound, rfl⟩ := Option.map_eq_some_iff.mp hstored
  exact ⟨hcode, g, hfound, hcovers.remembers⟩

section Overlap

def approves (badgeId : String) (approveName : Bool) : ApproveInput where
  requestToken := "signed"
  approvedBadgeIds := [badgeId]
  approveName := approveName
  approveAvatar := false
  approveSybilScore := false

theorem noGrant_initial : State.Initial { db := noGrant } := ⟨.nil, rfl⟩

def approveFirst : Action :=
  .approve (forumEnv "code1" "grant1") (some "alice") (approves "cgithub001" true) noGrant

def approveSecond : Action :=
  .approve (forumEnv "code2" "grant2") (some "alice") (approves "cgoogle001" false) noGrant

/-- What is left of a state: the fields of the grants, and the badges each committed consent
disclosed. -/
def State.summary (s : State) : List OidcGrantFields × List (List String) :=
  (s.db.oidcGrant.map (·.fields),
    (s.calls.filterMap ApproveCall.approval).map (·.code.snapshot.approvedBadgeIds))

/-- One consent after the other. -/
def consentsInTurn : List Action :=
  [approveFirst, .advance 0, .advance 0, .advance 0, .advance 0, approveSecond, .advance 1,
    .advance 1, .advance 1, .advance 1]

theorem consentsInTurn_remember :
    ∃ s, run step { db := noGrant } consentsInTurn = some s ∧
      s.summary = ([⟨["oauth-account"], ["cgithub001", "cgoogle001"], true, false, false⟩],
        [["cgithub001"], ["cgoogle001"]]) ∧
      ∀ t, .committed t ∈ s.calls → t.code ∈ s.db.oidcAuthorizationCode ∧
        ∃ g, findGrant s.db.oidcGrant t.userId t.request.clientId = some g ∧
          Remembers g.fields t := by
  exact exists_run_and (by decide +kernel) fun s hrun =>
    remembered_of_run noGrant_initial (by decide +kernel) hrun

/-- Both consents read the grant before either writes it. -/
def twoConsents : List Action :=
  [approveFirst, approveSecond, .advance 0, .advance 1, .advance 0, .advance 1, .advance 0,
    .advance 0, .advance 1, .advance 1]

/-- Both commit, and the grant has lost the badge and the name that the first one disclosed. -/
theorem twoConsents_forget :
    State.Initial { db := noGrant } ∧
      ∃ s t g, run step { db := noGrant } twoConsents = some s ∧
        (s.calls.map fun c => c.approval.isSome) = [true, true] ∧
        .committed t ∈ s.calls ∧
        findGrant s.db.oidcGrant t.userId t.request.clientId = some g ∧
        "cgithub001" ∈ t.code.snapshot.approvedBadgeIds ∧ "cgithub001" ∉ g.fields.badgeIds ∧
        t.code.snapshot.profileName = true ∧ g.fields.profileName = false := by
  refine ⟨noGrant_initial, _, _, _, rfl, by decide +kernel, List.mem_cons_self, rfl, ?_⟩
  decide +kernel

end Overlap

end Grants

end Minister.Oidc

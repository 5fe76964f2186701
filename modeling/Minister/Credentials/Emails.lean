import Minister.Credentials.Lifecycle
import Minister.Merge.RoundTrip

/-!
# Email addresses that sign in

A sign-in resolves an address through the verified `UserEmail` row for it and, where there is
none, through the column `User.email`. That column caches the primary address of an account:
creating the account and promoting an address write it, merging accounts and undoing a merge
leave it alone, and removing an address leaves it alone as well. So an address that is removed
while it is the cached one keeps resolving to the account.

As long as no address is removed that some account has cached, every cached address has a
verified row, the fallback never decides a sign-in, and what an address resolves to is the
account that owns its row.
-/

namespace Minister.Emails

open Relational Recovery Credentials Transition

/-! ### Resolving an address -/

/-- What a sign-in knows of the user. -/
structure AdapterUser where
  id : UserId
  email : String
  sessionGeneration : Nat
  deriving DecidableEq, Repr

def toAdapterUser (user : User) (emailOverride : Option String) : AdapterUser where
  id := user.id
  email := emailOverride.getD (user.email.getD "")
  sessionGeneration := user.sessionGeneration

/-- The row of an address, if it is verified. -/
def verifiedRow (db : Db) (email : String) : Option UserEmail :=
  (db.userEmail.find? fun e => e.email = email).filter fun e => e.verifiedAt ≠ none

def getUserByEmailIdentity (db : Db) (email : String) : Option AdapterUser :=
  match verifiedRow db email with
  | some owned =>
    (findUser owned.userId db.user).map fun user => toAdapterUser user (some owned.email)
  -- accounts from before there were rows for addresses
  | none => (db.user.find? fun u => u.email = some email).map fun user => toAdapterUser user none

/-! ### Creating an account -/

def newUser (id : UserId) (email : String) : User where
  id := id
  email := some email
  isAdmin := false
  isBanned := false
  sessionGeneration := 0
  mergedIntoUserId := none
  mergedAt := none
  dedupHandle := none

/-- The transaction that creates an account for an address that was just proven. Unproven
claims to the address are dropped; a proven one makes it fail. -/
def createEmailUser (email : String) (userId rowId : String) (now : Timestamp) (db : Db) :
    Except DbError (Db × AdapterUser) := do
  let userEmail := deleteMany (fun e => e.email = email ∧ e.verifiedAt = none) db.userEmail
  let user ← create (newUser userId email) db.user
  let userEmail ← create ⟨rowId, userId, email, some now, true⟩ userEmail
  return ({ db with user, userEmail }, toAdapterUser (newUser userId email) (some email))

/-! ### Adding and verifying an address -/

/-- What a verified link token carries. -/
structure VerifyPayload where
  userEmailId : String
  jti : String
  deriving DecidableEq, Repr

/-- What is outside the repository: `canonical` composes `normalize("NFKC")`, `trim` and
`toLowerCase`, and `jwtVerify` is the library call with the app's key, algorithm and type. -/
structure Env where
  canonical : String → String
  jwtVerify : String → Option VerifyPayload

/-- The characters that `\s` matches. -/
def isSpace (c : Char) : Bool :=
  let n := c.toNat
  (0x09 ≤ n ∧ n ≤ 0x0D) ∨ (0x2000 ≤ n ∧ n ≤ 0x200A) ∨
    n ∈ [0x20, 0xA0, 0x1680, 0x2028, 0x2029, 0x202F, 0x205F, 0x3000, 0xFEFF]

/-- `/^[^\s@]+@[^\s@]+\.[^\s@]+$/`: one `@` with something before it, and after it a dot that
has something on either side. -/
def emailShaped (email : String) : Bool :=
  let cs := email.toList
  match cs.dropWhile (· ≠ '@') with
  | [] => false
  | _ :: domain =>
    cs.takeWhile (· ≠ '@') ≠ [] ∧ '@' ∉ domain ∧ cs.all (fun c => !isSpace c) ∧
      '.' ∈ (domain.drop 1).dropLast

example : emailShaped "ann@mail.example" = true ∧ emailShaped "ann@example" = false := by
  decide +kernel

def normalizeEmail (env : Env) (raw : String) : Except ActionError String := do
  let email := env.canonical raw
  ensure (emailShaped email) (.error "Enter a valid email address.")
  return email

/-- The checks every change of the addresses of an account starts with. -/
def requireManager (session : Option Principal) : Except ActionError UserId := do
  let session ← requirePrincipal session
  rejectRecovered session
  requireAal session.toSession 2
  return session.userId

/-- `VERIFY_CONSUMPTION_IDENTIFIER`. -/
def verifyConsumptionIdentifier : String := "email-verify"

/-- `VERIFY_TTL_SECONDS`. -/
def verifyTtlSeconds : Int := 24 * 60 * 60

/-- Add an unverified address and mail a link for it. The row goes again if the mail cannot be
sent; the marker of the link stays. -/
def addEmail (env : Env) (session : Option Principal) (emailInput rowId jti : String)
    (now : Timestamp) (sendMail : Except String Unit) (db : Db) :
    Db × Except ActionError (String × String) :=
  match (do
    let userId ← requireManager session
    let email ← normalizeEmail env emailInput
    return (userId, email) : Except ActionError (UserId × String)) with
  | .error e => (db, .error e)
  | .ok (userId, email) =>
    match create ⟨rowId, userId, email, none, false⟩ db.userEmail with
    | .error _ => (db, .error (.error "That email is already in use on another account."))
    | .ok userEmail =>
      let marker : VerificationToken :=
        ⟨verifyConsumptionIdentifier, jti, now + verifyTtlSeconds * 1000⟩
      let marked := db.verificationToken ++ [marker]
      match sendMail with
      | .ok () => ({ db with userEmail, verificationToken := marked }, .ok (rowId, email))
      | .error message =>
        ({ db with
            userEmail := deleteMany (fun e => e.id = rowId) userEmail
            verificationToken := marked },
          .error (.error message))

/-- Check a link token and use its marker up. -/
def consumeEmailVerifyToken (env : Env) (token : String) (db : Db) : Option (Db × String) := do
  let payload ← env.jwtVerify token
  let isMarker := fun t : VerificationToken =>
    t.identifier = verifyConsumptionIdentifier ∧ t.token = payload.jti
  if db.verificationToken.any fun t => isMarker t then
    return ({ db with verificationToken := deleteMany (fun t => isMarker t) db.verificationToken },
      payload.userEmailId)
  else none

def verifyEmail (env : Env) (token : String) (now : Timestamp) (db : Db) :
    Db × Except ActionError String :=
  if token = "" then (db, .error (.error "Missing verification token."))
  else
    match consumeEmailVerifyToken env token db with
    | none => (db, .error (.error "This verification link is invalid or has expired."))
    | some (db, userEmailId) =>
      match db.userEmail.find? fun e => e.id = userEmailId with
      | none => (db, .error (.error "This email is no longer associated with an account."))
      | some existing =>
        if existing.verifiedAt = none then
          let userEmail := mapWhere (fun e => e.id = existing.id)
            (fun e => { e with verifiedAt := some now }) db.userEmail
          ({ db with userEmail }, .ok existing.email)
        else (db, .ok existing.email)

/-! ### Removing and promoting an address -/

/-- The row of the id, if the user owns it. -/
def ownEmail (userId : UserId) (emailId : String) (db : Db) : Except ActionError UserEmail := do
  let target ← orThrow (db.userEmail.find? fun e => e.id = emailId) "Email not found."
  ensure (target.userId = userId) (.error "Email not found.")
  return target

/-- The verified addresses of the account but one. -/
def otherVerified (emails : List UserEmail) (userId : UserId) (emailId : String) : List UserEmail :=
  findMany (fun e => e.userId = userId ∧ e.verifiedAt ≠ none ∧ e.id ≠ emailId) emails

/-- The account would be left without a verified address. -/
def isLastVerified (emails : List UserEmail) (userId : UserId) (target : UserEmail) : Bool :=
  (target.verifiedAt ≠ none || target.isPrimary) &&
    (otherVerified emails userId target.id).length = 0

/-- Remove an address, unless the account would be left without a verified one. The cached
address of the account is not touched. -/
def removeEmail (session : Option Principal) (emailId : String) (db : Db) :
    Except ActionError Db := do
  let userId ← requireManager session
  let target ← ownEmail userId emailId db
  ensure (!isLastVerified db.userEmail userId target) (.error
    "You can't remove your last verified email. Add and verify another address first.")
  return { db with userEmail := deleteMany (fun e => e.id = emailId) db.userEmail }

/-- Make an address the primary one, in a transaction. `gate` is what the quarantine gate
answers for the session. -/
def setPrimaryEmail (session : Option Principal) (gate : Option QuarantineRefusal)
    (emailId : String) (db : Db) : Except ActionError Db := do
  let userId ← requireManager session
  passes (gate.map (·.message))
  let target ← ownEmail userId emailId db
  ensure (target.verifiedAt ≠ none) (.error
    "Verify this email before making it your primary address.")
  -- clear all, set one, refresh the cache
  let userEmail := mapWhere (fun e => e.userId = userId ∧ e.isPrimary = true)
    (fun e => { e with isPrimary := false }) db.userEmail
  let userEmail := mapWhere (fun e => e.id = emailId) (fun e => { e with isPrimary := true })
    userEmail
  ensure (db.user.any fun u => u.id = userId) (.error "Record to update not found.")
  let user := mapWhere (fun u => u.id = userId) (fun u => { u with email := some target.email })
    db.user
  return { db with user, userEmail }

/-! ### Sequences of operations -/

inductive Action
  | createEmailUser (email userId rowId : String) (now : Timestamp)
  | addEmail (session : Option Principal) (emailInput rowId jti : String) (now : Timestamp)
      (sendMail : Except String Unit)
  | verifyEmail (token : String) (now : Timestamp)
  | removeEmail (session : Option Principal) (emailId : String)
  | setPrimaryEmail (session : Option Principal) (gate : Option QuarantineRefusal)
      (emailId : String)
  | mergeAccounts (pairwise : UserId → ClientId → String) (inputs : MergeInputs)
      (survivorUserId donorUserId : UserId)
  | reverseMerge (mergeRecordId : String) (now : Timestamp)

/-- A transaction that throws is rolled back. -/
def committed {ε : Type} (db : Db) : Except ε Db → Db
  | .ok db' => db'
  | .error _ => db

/-- An operation that throws leaves the database alone, but for what `addEmail` and
`verifyEmail` have written by then. -/
def step (env : Env) (db : Db) : Action → Option Db
  | .createEmailUser email userId rowId now =>
    some (committed db ((createEmailUser email userId rowId now db).map Prod.fst))
  | .addEmail session emailInput rowId jti now sendMail =>
    some (addEmail env session emailInput rowId jti now sendMail db).1
  | .verifyEmail token now => some (verifyEmail env token now db).1
  | .removeEmail session emailId => some (committed db (removeEmail session emailId db))
  | .setPrimaryEmail session gate emailId =>
    some (committed db (setPrimaryEmail session gate emailId db))
  | .mergeAccounts pairwise inputs survivorUserId donorUserId =>
    some (committed db
      ((mergeAccounts pairwise inputs survivorUserId donorUserId db).map Prod.fst))
  | .reverseMerge mergeRecordId now =>
    some (committed db ((reverseMerge mergeRecordId now db).map Prod.fst))

/-- A removal is of an address that no account has cached. -/
def KeepsCached (db : Db) : Action → Prop
  | .removeEmail _ emailId =>
    ∀ e ∈ db.userEmail, e.id = emailId → ∀ u ∈ db.user, u.email ≠ some e.email
  | _ => True

instance (db : Db) (a : Action) : Decidable (KeepsCached db a) := by
  cases a <;> unfold KeepsCached <;> infer_instance

/-- The account owns a verified row for the address. -/
def Owns (db : Db) (userId : UserId) (email : String) : Prop :=
  ∃ e ∈ db.userEmail, e.userId = userId ∧ e.email = email ∧ e.verifiedAt ≠ none

instance (db : Db) (userId : UserId) (email : String) : Decidable (Owns db userId email) :=
  inferInstanceAs (Decidable (∃ e ∈ db.userEmail, _))

/-! ### Cached addresses -/

/-- Some account owns a verified row for the address. -/
def Verified (userEmail : List UserEmail) (email : String) : Prop :=
  ∃ e ∈ userEmail, e.email = email ∧ e.verifiedAt ≠ none

/-- The unique constraints hold, and every cached address has a verified row. -/
structure Backed (db : Db) : Prop where
  consistent : db.Consistent
  cached : ∀ u ∈ db.user, ∀ email, u.email = some email → Verified db.userEmail email

section Steps

variable {env : Env} {db db' : Db} {a : Action}
variable {email emailId mergeRecordId : String} {now : Timestamp} {session : Option Principal}
  {user : AdapterUser}

/-- An address with a verified row resolves through that row. -/
theorem verifiedRow_of_verified (hdb : db.Consistent) (h : Verified db.userEmail email) :
    ∃ e, verifiedRow db email = some e := by
  obtain ⟨e, he, hemail, hverified⟩ := h
  -- addresses are unique
  have hfind : (db.userEmail.find? fun e => e.email = email) = some e := by
    refine (hdb.userEmail.find?_eq_some_iff fun a b ha hb => ?_).mpr ⟨he, decide_eq_true hemail⟩
    simp [clash, of_decide_eq_true ha, of_decide_eq_true hb]
  refine ⟨e, ?_⟩
  rw [verifiedRow, hfind, Option.filter_some, if_pos (by simpa using hverified)]

/-- If every cached address has a verified row, addresses resolve to their owners. -/
theorem Backed.owns (h : Backed db) (hresolve : getUserByEmailIdentity db email = some user) :
    Owns db user.id email := by
  unfold getUserByEmailIdentity at hresolve
  split at hresolve
  · rename_i owned hrow
    obtain ⟨u, hfind, rfl⟩ := Option.map_eq_some_iff.mp hresolve
    obtain ⟨hfound, hverified⟩ := Option.filter_eq_some_iff.mp hrow
    refine ⟨owned, List.mem_of_find?_eq_some hfound, ?_, ?_, ?_⟩
    · have hid := List.find?_some hfind
      exact (of_decide_eq_true hid).symm
    · have hmatch := List.find?_some hfound
      exact of_decide_eq_true hmatch
    · exact of_decide_eq_true hverified
  · -- the fallback would need a cached address without a row
    rename_i hnone
    obtain ⟨u, hfind, -⟩ := Option.map_eq_some_iff.mp hresolve
    have hcached : u.email = some email := by
      have hmatch := List.find?_some hfind
      exact of_decide_eq_true hmatch
    obtain ⟨e, he⟩ := verifiedRow_of_verified h.consistent
      (h.cached u (List.mem_of_find?_eq_some hfind) email hcached)
    rw [hnone] at he
    cases he

/-- Operations that cache no new address and keep the verified rows. -/
theorem Backed.of_kept (h : Backed db) (hcons : db'.Consistent)
    (huser : ∀ u' ∈ db'.user, ∃ u ∈ db.user, u'.email = u.email)
    (hrows : ∀ e ∈ db.userEmail, e.verifiedAt ≠ none →
      ∃ e' ∈ db'.userEmail, e'.email = e.email ∧ e'.verifiedAt ≠ none) : Backed db' := by
  refine ⟨hcons, fun u' hu' email hemail => ?_⟩
  obtain ⟨u, hu, heq⟩ := huser u' hu'
  obtain ⟨e, he, hemail', hverified⟩ := h.cached u hu email (heq ▸ hemail)
  obtain ⟨e', he', hsame, hverified'⟩ := hrows e he hverified
  exact ⟨e', he', hsame.trans hemail', hverified'⟩

/-- Rewriting rows without touching their addresses keeps the verified ones. -/
theorem verified_mapWhere {rows : List UserEmail} {p : UserEmail → Bool}
    {f : UserEmail → UserEmail} (hemail : ∀ e, (f e).email = e.email)
    (hverified : ∀ e, e.verifiedAt ≠ none → (f e).verifiedAt ≠ none) {e : UserEmail}
    (he : e ∈ rows) (hv : e.verifiedAt ≠ none) :
    ∃ e' ∈ mapWhere p f rows, e'.email = e.email ∧ e'.verifiedAt ≠ none := by
  refine ⟨_, mem_mapWhere.mpr ⟨e, he, rfl⟩, ?_⟩
  split_ifs
  · exact ⟨hemail e, hverified e hv⟩
  · exact ⟨rfl, hv⟩

theorem Backed.createEmailUser {userId rowId : String} (h : Backed db)
    (hstep : createEmailUser email userId rowId now db = .ok (db', user)) : Backed db' := by
  simp only [Emails.createEmailUser, bind_eq_ok_iff] at hstep
  obtain ⟨users, huser, rows, hrow, hout⟩ := hstep
  cases hout
  obtain ⟨hucons, rfl⟩ := create_eq_ok_iff.mp huser
  obtain ⟨hrcons, rfl⟩ := create_eq_ok_iff.mp hrow
  refine ⟨{ h.consistent with user := hucons, userEmail := hrcons }, fun u hu email' hemail' => ?_⟩
  rcases List.mem_append.mp hu with hold | hnew
  · -- a verified row is not among the dropped claims
    obtain ⟨e, he, hsame, hverified⟩ := h.cached u hold email' hemail'
    refine ⟨e, List.mem_append_left _ (mem_deleteMany.mpr ⟨he, ?_⟩), hsame, hverified⟩
    exact decide_eq_false fun hdrop => hverified hdrop.2
  · obtain rfl := List.mem_singleton.mp hnew
    obtain rfl : email = email' := Option.some_inj.mp hemail'
    exact ⟨_, List.mem_append_right _ (List.mem_singleton.mpr rfl), rfl, Option.some_ne_none _⟩

theorem Backed.addEmail (h : Backed db) (session : Option Principal)
    (emailInput rowId jti : String) (now : Timestamp) (sendMail : Except String Unit) :
    Backed (addEmail env session emailInput rowId jti now sendMail db).1 := by
  unfold Emails.addEmail
  split
  · exact h
  · rename_i userId email hchecks
    split
    · exact h
    · rename_i rows hcreate
      obtain ⟨hcons, rfl⟩ := create_eq_ok_iff.mp hcreate
      split
      · exact h.of_kept { h.consistent with userEmail := hcons } (fun u hu => ⟨u, hu, rfl⟩)
          fun e he hv => ⟨e, List.mem_append_left _ he, rfl, hv⟩
      · -- the row that goes again has the new id
        refine h.of_kept { h.consistent with userEmail := hcons.deleteMany }
          (fun u hu => ⟨u, hu, rfl⟩) fun e he hv => ⟨e, mem_deleteMany.mpr ⟨?_, ?_⟩, rfl, hv⟩
        · exact List.mem_append_left _ he
        · apply decide_eq_false
          intro hid
          have hfresh := (consistent_append_singleton.mp hcons).2 e he
          simp [clash, hid] at hfresh

theorem Backed.verifyEmail (h : Backed db) (token : String) (now : Timestamp) :
    Backed (verifyEmail env token now db).1 := by
  have hconsume {db' : Db} {userEmailId : String}
      (hc : consumeEmailVerifyToken env token db = some (db', userEmailId)) :
      db'.user = db.user ∧ db'.userEmail = db.userEmail ∧ db'.Consistent := by
    simp only [consumeEmailVerifyToken, Option.bind_eq_bind, Option.bind_eq_some_iff] at hc
    obtain ⟨payload, -, hc⟩ := hc
    split_ifs at hc
    cases hc
    exact ⟨rfl, rfl, { h.consistent with }⟩
  unfold Emails.verifyEmail
  split_ifs
  · exact h
  split
  · exact h
  · rename_i db₁ userEmailId hc
    obtain ⟨huser, hemails, hcons⟩ := hconsume hc
    have h₁ : Backed db₁ := by
      refine h.of_kept hcons ?_ ?_
      · rw [huser]
        exact fun u hu => ⟨u, hu, rfl⟩
      · rw [hemails]
        exact fun e he hv => ⟨e, he, rfl, hv⟩
    split
    · exact h₁
    · split_ifs
      · refine h₁.of_kept { hcons with userEmail := ?_ } (fun u hu => ⟨u, hu, rfl⟩) ?_
        · exact hcons.userEmail.mapWhere_of_clash _ fun _ _ => rfl
        · intro e he hv
          exact verified_mapWhere (f := fun e => { e with verifiedAt := some now }) (fun _ => rfl)
            (fun _ _ => Option.some_ne_none _) he hv
      · exact h₁

theorem ensure_eq_ok_iff {ok : Bool} {e : ActionError} {u : Unit} :
    ensure ok e = .ok u ↔ ok = true := by
  unfold ensure
  split_ifs with h <;> simp [h]

theorem ownEmail_eq_ok {userId : UserId} {target : UserEmail}
    (h : ownEmail userId emailId db = .ok target) :
    target ∈ db.userEmail ∧ target.id = emailId ∧ target.userId = userId := by
  simp only [ownEmail, bind_eq_ok_iff, orThrow_eq_ok_iff, ensure_eq_ok_iff] at h
  obtain ⟨row, hfind, _, hown, hout⟩ := h
  cases hout
  have hmatch := List.find?_some hfind
  exact ⟨List.mem_of_find?_eq_some hfind, of_decide_eq_true hmatch, of_decide_eq_true hown⟩

variable (h : Backed db)

include h

theorem Backed.removeEmail (hkeeps : KeepsCached db (.removeEmail session emailId))
    (hstep : removeEmail session emailId db = .ok db') : Backed db' := by
  simp only [Emails.removeEmail, bind_eq_ok_iff] at hstep
  obtain ⟨userId, -, target, -, _, -, hout⟩ := hstep
  cases hout
  refine ⟨{ h.consistent with userEmail := h.consistent.userEmail.deleteMany },
    fun u hu email hemail => ?_⟩
  obtain ⟨e, he, hsame, hverified⟩ := h.cached u hu email hemail
  refine ⟨e, mem_deleteMany.mpr ⟨he, decide_eq_false fun hid => ?_⟩, hsame, hverified⟩
  -- the row that goes is not that of a cached address
  exact hkeeps e he hid u hu (hsame ▸ hemail)

theorem Backed.setPrimaryEmail {gate : Option QuarantineRefusal}
    (hstep : setPrimaryEmail session gate emailId db = .ok db') : Backed db' := by
  simp only [Emails.setPrimaryEmail, bind_eq_ok_iff, ensure_eq_ok_iff] at hstep
  obtain ⟨userId, -, _, -, target, htarget, _, hverified, _, -, hout⟩ := hstep
  cases hout
  obtain ⟨hmem, -, -⟩ := ownEmail_eq_ok htarget
  have hrows {e : UserEmail} (he : e ∈ db.userEmail) (hv : e.verifiedAt ≠ none) :
      Verified (mapWhere (fun e => e.id = emailId) (fun e => { e with isPrimary := true })
        (mapWhere (fun e => e.userId = userId ∧ e.isPrimary = true)
          (fun e => { e with isPrimary := false }) db.userEmail)) e.email := by
    obtain ⟨e₁, he₁, hsame₁, hv₁⟩ := verified_mapWhere
      (p := fun e => e.userId = userId ∧ e.isPrimary = true)
      (f := fun e => { e with isPrimary := false }) (fun _ => rfl) (fun _ hv => hv) he hv
    obtain ⟨e₂, he₂, hsame₂, hv₂⟩ := verified_mapWhere
      (p := fun e => e.id = emailId)
      (f := fun e => { e with isPrimary := true }) (fun _ => rfl) (fun _ hv => hv) he₁ hv₁
    exact ⟨e₂, he₂, hsame₂.trans hsame₁, hv₂⟩
  refine ⟨{ h.consistent with user := ?_, userEmail := ?_ }, fun u hu email hemail => ?_⟩
  · exact h.consistent.user.mapWhere_of_clash _ fun _ _ => rfl
  · apply Consistent.mapWhere_of_clash
    · exact h.consistent.userEmail.mapWhere_of_clash _ fun _ _ => rfl
    · exact fun _ _ => rfl
  · obtain ⟨u₀, hu₀, rfl⟩ := mem_mapWhere.mp hu
    split_ifs at hemail
    · -- the new cached address is that of the promoted row
      obtain rfl : target.email = email := Option.some_inj.mp hemail
      exact hrows hmem (of_decide_eq_true hverified)
    · obtain ⟨e, he, rfl, hv⟩ := h.cached u₀ hu₀ email hemail
      exact hrows he hv

/-- A merge hands rows over and leaves the cached addresses alone. -/
theorem Backed.mergeAccounts {pairwise : UserId → ClientId → String} {inputs : MergeInputs}
    {S D : UserId} {summary : MergeSummary}
    (hstep : mergeAccounts pairwise inputs S D db = .ok (db', summary)) : Backed db' := by
  obtain ⟨-, survivor, donor, p, entries, -, -, rfl, hcons⟩ :=
    settledDb_of_mergeAccounts h.consistent hstep
  refine h.of_kept hcons (fun u hu => ?_) fun e he hv => ?_
  · obtain ⟨v, hv, rfl⟩ := List.mem_map.mp hu
    obtain ⟨w, hw, rfl⟩ := mem_mapWhere.mp hv
    obtain ⟨x, hx, rfl⟩ := mem_mapWhere.mp hw
    refine ⟨x, hx, ?_⟩
    unfold claimHandle
    split_ifs <;> rfl
  · obtain ⟨e₁, he₁, hsame₁, hv₁⟩ := verified_mapWhere
      (p := fun e => owner e = some donor.id) (f := setOwner survivor.id) (fun _ => rfl)
      (fun _ hv => hv) he hv
    obtain ⟨e₂, he₂, hsame₂, hv₂⟩ := verified_mapWhere
      (p := fun e => e.id ∈ demotedPrimaryEmailIds donor.id db.userEmail)
      (f := fun e => { e with isPrimary := false }) (fun _ => rfl) (fun _ hv => hv) he₁ hv₁
    exact ⟨e₂, he₂, hsame₂.trans hsame₁, hv₂⟩

theorem Backed.reverseRows {snap : MergeSnapshot} {donor : User}
    {out : Db × ReverseResult × Option ReverseReassign}
    (hrows : reverseRows mergeRecordId snap now donor db = .ok out) : Backed out.1 := by
  have hrev := reversedRows hrows
  refine h.of_kept (hrev.consistent h.consistent) (fun u hu => ?_) fun e he hv => ?_
  · rw [hrev.user] at hu
    obtain ⟨v, hv, rfl⟩ := mem_mapWhere.mp hu
    obtain ⟨w, hw, rfl⟩ := mem_mapWhere.mp hv
    exact ⟨w, hw, by split_ifs <;> rfl⟩
  · rw [hrev.userEmail]
    obtain ⟨e₁, he₁, hsame₁, hv₁⟩ := verified_mapWhere
      (p := fun e => key e ∈ snap.moved.userEmail) (f := setOwner snap.donorUserId)
      (fun _ => rfl) (fun _ hv => hv) he hv
    obtain ⟨e₂, he₂, hsame₂, hv₂⟩ := verified_mapWhere
      (p := fun e => e.id ∈ snap.demotedPrimaryEmailIds)
      (f := fun e => { e with isPrimary := true }) (fun _ => rfl) (fun _ hv => hv) he₁ hv₁
    exact ⟨e₂, he₂, hsame₂.trans hsame₁, hv₂⟩

/-- So does the reversal of a merge. -/
theorem Backed.reverseMerge {result : ReverseResult}
    (hstep : reverseMerge mergeRecordId now db = .ok (db', result)) : Backed db' := by
  rcases reverseMerge_effect hstep with ⟨rfl, -⟩ | ⟨_, _, db₀, reassign, -, -, -, -, hrows, rfl⟩
  · exact h
  · have h₀ : Backed db₀ := h.reverseRows hrows
    obtain ⟨entries, hframe⟩ := reassignOnReverse_frame reassign db₀
    refine h₀.of_kept (consistent_reassignOnReverse h₀.consistent reassign) ?_ ?_
    · rw [hframe]
      exact fun u hu => ⟨u, hu, rfl⟩
    · rw [hframe]
      exact fun e he hv => ⟨e, he, rfl, hv⟩

/-- Whatever a transaction that was not rolled back keeps. -/
theorem Backed.committed {ε : Type} {r : Except ε Db} (hr : ∀ db', r = .ok db' → Backed db') :
    Backed (committed db r) := by
  cases r with
  | ok db' => exact hr db' rfl
  | error e => exact h

theorem Backed.step (hkeeps : KeepsCached db a) (hstep : step env db a = some db') :
    Backed db' := by
  cases a with
  | createEmailUser email userId rowId now =>
    cases hstep
    refine h.committed fun db' hdb' => ?_
    obtain ⟨⟨_, user⟩, hcreate, rfl⟩ := map_eq_ok_iff.mp hdb'
    exact h.createEmailUser hcreate
  | addEmail session emailInput rowId jti now sendMail =>
    cases hstep
    exact h.addEmail session emailInput rowId jti now sendMail
  | verifyEmail token now =>
    cases hstep
    exact h.verifyEmail token now
  | removeEmail session emailId =>
    cases hstep
    exact h.committed fun db' hdb' => h.removeEmail hkeeps hdb'
  | setPrimaryEmail session gate emailId =>
    cases hstep
    exact h.committed fun db' hdb' => h.setPrimaryEmail hdb'
  | mergeAccounts pairwise inputs survivorUserId donorUserId =>
    cases hstep
    refine h.committed fun db' hdb' => ?_
    obtain ⟨⟨_, summary⟩, hmerge, rfl⟩ := map_eq_ok_iff.mp hdb'
    exact h.mergeAccounts hmerge
  | reverseMerge mergeRecordId now =>
    cases hstep
    refine h.committed fun db' hdb' => ?_
    obtain ⟨⟨_, result⟩, hreverse, rfl⟩ := map_eq_ok_iff.mp hdb'
    exact h.reverseMerge hreverse

end Steps

/-- **Only attached addresses sign in.** Start where every cached address has a verified row,
for instance with no account at all. In every sequence of operations that removes no address
which some account has cached, an address that resolves to an account is one that the account
owns a verified row for. -/
theorem owns_of_run {env : Env} {db₀ db : Db} {as : List Action} (h₀ : Backed db₀)
    (hkeeps : Along (step env) KeepsCached db₀ as) (hrun : run (step env) db₀ as = some db) :
    ∀ email user, getUserByEmailIdentity db email = some user →
      (∃ e ∈ db.userEmail, e.userId = user.id) → Owns db user.id email := by
  have hbacked : Backed db :=
    run_invariant Backed (fun db a db' h hok hstep => h.step hok hstep) h₀ hkeeps hrun
  intro email user hresolve _
  exact hbacked.owns hresolve

section Removed

/-- Addresses are taken as they are, and a token is its own payload. -/
def plainEnv : Env := ⟨id, fun token => some ⟨token, token⟩⟩

def annSession : Principal := ⟨⟨some 2, false, none⟩, "cann000001"⟩

/-- An account is created for one address, and a second one is added and verified. -/
def addSecond : List Action :=
  [.createEmailUser "ann@old.example" "cann000001" "e1" 0,
    .addEmail (some annSession) "ann@new.example" "e2" "e2" 1000 (.ok ()), .verifyEmail "e2" 2000]

theorem backed_empty : Backed {} where
  consistent := by constructor <;> exact .nil
  cached := fun _ hu => absurd hu List.not_mem_nil

/-- The second address is promoted, and the first one removed. -/
def promoteAndRemove : List Action :=
  addSecond ++ [.setPrimaryEmail (some annSession) none "e2", .removeEmail (some annSession) "e1"]

def promotedDb : Db where
  user := [newUser "cann000001" "ann@new.example"]
  userEmail := [⟨"e2", "cann000001", "ann@new.example", some 2000, true⟩]

/-- An address that is no longer cached is gone once it is removed, and the promoted one
resolves to the account that owns it. -/
theorem promotedDb_owns :
    run (step plainEnv) {} promoteAndRemove = some promotedDb ∧
      getUserByEmailIdentity promotedDb "ann@old.example" = none ∧
      getUserByEmailIdentity promotedDb "ann@new.example" =
        some ⟨"cann000001", "ann@new.example", 0⟩ ∧
      Owns promotedDb "cann000001" "ann@new.example" := by
  have hrun : run (step plainEnv) {} promoteAndRemove = some promotedDb := by decide +kernel
  have hnew : getUserByEmailIdentity promotedDb "ann@new.example" =
      some ⟨"cann000001", "ann@new.example", 0⟩ := by
    decide +kernel
  refine ⟨hrun, by decide +kernel, hnew, ?_⟩
  exact owns_of_run backed_empty (by decide +kernel) hrun _ _ hnew (by decide +kernel)

/-- The first address is removed while it is the cached one. -/
def removedDb : Db where
  user := [newUser "cann000001" "ann@old.example"]
  userEmail := [⟨"e2", "cann000001", "ann@new.example", some 2000, false⟩]

/-- An account that removes the address it was created with still is what that address
resolves to, although it owns a row for its other address only. -/
theorem removedAddress_resolves :
    Backed {} ∧
      run (step plainEnv) {} (addSecond ++ [.removeEmail (some annSession) "e1"]) =
        some removedDb ∧
      getUserByEmailIdentity removedDb "ann@old.example" =
        some ⟨"cann000001", "ann@old.example", 0⟩ ∧
      (∃ e ∈ removedDb.userEmail, e.userId = "cann000001") ∧
      ¬Owns removedDb "cann000001" "ann@old.example" := by
  refine ⟨backed_empty, ?_⟩
  decide +kernel

end Removed

end Minister.Emails

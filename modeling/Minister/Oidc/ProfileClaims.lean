import Minister.Merge.RoundTrip

/-!
# Profile claims across a merge

`/oidc/userinfo` answers with the name and picture of the account its access token belongs
to: those of the account's persona at the client if it has one, else those of the global
profile. A merge re-points the donor's tokens at the survivor. Personas and profiles stay
where they are, so a token of the donor is answered with the profile of the survivor.
-/

namespace Minister.ProfileClaims

open Relational

/-! ### Userinfo -/

/-- A curated profile: that of an account, or a persona of it. -/
structure Curated where
  displayName : Option String
  avatarUrl : Option String
  deriving DecidableEq, Repr

/-- The columns of an access token beside its key and its owner. -/
structure TokenColumns where
  expiresAt : Timestamp
  revokedAt : Option Timestamp
  profileName : Bool
  profileAvatar : Bool

/-- The columns that userinfo reads and no statement of a merge writes, by the key of their
row, and whether the table of personas has been created. -/
structure Columns where
  profile : UserId → Curated
  token : String → TokenColumns
  personasExist : Bool

/-- The profile part of the claims. -/
structure ResolvedProfile where
  name : Option String
  picture : Option String
  deriving DecidableEq, Repr

/-- A persona is authoritative, also where it is empty. -/
def resolveUserClaims (user : Curated) (grantsName grantsAvatar : Bool)
    (override : Option Curated) : ResolvedProfile where
  name :=
    if grantsName then
      match override with
      | some o => o.displayName
      | none => user.displayName
    else none
  picture :=
    if grantsAvatar then
      match override with
      | some o => o.avatarUrl
      | none => user.avatarUrl
    else none

def loadProfileOverride (personasExist : Bool) (userId : UserId) (clientId : ClientId)
    (wantsProfile : Bool) (t : List OidcProfileOverride) : Option Curated :=
  if wantsProfile ∧ personasExist then
    (t.find? fun o => o.userId = userId ∧ o.clientId = clientId).map
      fun o => ⟨o.displayName, o.avatarUrl⟩
  else none

/-- The checks of the row of an access token, and its claims. -/
def answer (columns : Columns) (token : TokenColumns) (now : Timestamp) (row : OidcAccessToken)
    (user : User) (db : Db) : Except String ResolvedProfile :=
  if token.revokedAt ≠ none then .error "Token has been revoked"
  else if token.expiresAt < now then .error "Token has expired"
  else if user.mergedIntoUserId ≠ none then .error "Token is not recognized"
  else .ok (resolveUserClaims (columns.profile user.id) token.profileName token.profileAvatar
    (loadProfileOverride columns.personasExist row.userId row.clientId
      (token.profileName || token.profileAvatar) db.oidcProfileOverride))

/-- The row is read together with its user. -/
def userinfo (columns : Columns) (jti : String) (now : Timestamp) (db : Db) :
    Except String ResolvedProfile :=
  match db.oidcAccessToken.find? fun t => t.jti = jti with
  | none => .error "Token is not recognized"
  | some row =>
    match findUser row.userId db.user with
    | none => .error "Token is not recognized"
    | some user => answer columns (columns.token jti) now row user db

/-! ### The property, and when it holds -/

/-- The later call is refused, or answered as the earlier one. -/
def Unchanged (before after : Except String ResolvedProfile) : Prop :=
  ∀ claims, after = .ok claims → before = .ok claims

/-- What an account shows at a client: its persona there, else its profile. -/
def shown (columns : Columns) (db : Db) (userId : UserId) (clientId : ClientId) : Curated :=
  (loadProfileOverride columns.personasExist userId clientId true db.oidcProfileOverride).getD
    (columns.profile userId)

/-- If the token is a live one of the donor, and the survivor is not merged away itself,
the two accounts show the same of what the token grants. -/
def KeepsProfile (columns : Columns) (jti : String) (now : Timestamp) (S D : UserId) (db : Db) :
    Prop :=
  ∀ row ∈ db.oidcAccessToken.find? fun t => t.jti = jti, row.userId = D →
    (columns.token jti).revokedAt = none → now ≤ (columns.token jti).expiresAt →
    ∀ survivor ∈ findUser S db.user, survivor.mergedIntoUserId = none →
      ((columns.token jti).profileName = true →
        (shown columns db S row.clientId).displayName =
          (shown columns db D row.clientId).displayName) ∧
      ((columns.token jti).profileAvatar = true →
        (shown columns db S row.clientId).avatarUrl = (shown columns db D row.clientId).avatarUrl)

/-- What a token of the account may be answered with. -/
def granted (columns : Columns) (token : TokenColumns) (db : Db) (userId : UserId)
    (clientId : ClientId) : ResolvedProfile where
  name := if token.profileName then (shown columns db userId clientId).displayName else none
  picture := if token.profileAvatar then (shown columns db userId clientId).avatarUrl else none

section Claims

variable {columns : Columns} {token : TokenColumns} {jti : String} {now now' : Timestamp}
  {db db' : Db} {S D : UserId}

theorem granted_eq_iff {u v : UserId} {clientId : ClientId} :
    granted columns token db u clientId = granted columns token db v clientId ↔
      (token.profileName = true →
        (shown columns db u clientId).displayName = (shown columns db v clientId).displayName) ∧
      (token.profileAvatar = true →
        (shown columns db u clientId).avatarUrl = (shown columns db v clientId).avatarUrl) := by
  simp only [granted, ResolvedProfile.mk.injEq]
  cases token.profileName <;> cases token.profileAvatar <;> simp

theorem resolveUserClaims_eq (columns : Columns) (token : TokenColumns) (db : Db)
    (userId : UserId) (clientId : ClientId) :
    resolveUserClaims (columns.profile userId) token.profileName token.profileAvatar
        (loadProfileOverride columns.personasExist userId clientId
          (token.profileName || token.profileAvatar) db.oidcProfileOverride) =
      granted columns token db userId clientId := by
  unfold resolveUserClaims granted shown
  -- Without a grant the persona is not looked up, and nothing is shown.
  cases token.profileName <;> cases token.profileAvatar <;>
    simp only [Bool.or_true, Bool.or_false, if_true, if_false, Bool.false_eq_true] <;>
    cases loadProfileOverride columns.personasExist userId clientId true db.oidcProfileOverride <;>
    rfl

theorem answer_eq_ok_iff {row : OidcAccessToken} {user : User} {claims : ResolvedProfile}
    (huser : user.id = row.userId) :
    answer columns token now row user db = .ok claims ↔
      token.revokedAt = none ∧ now ≤ token.expiresAt ∧ user.mergedIntoUserId = none ∧
        granted columns token db row.userId row.clientId = claims := by
  unfold answer
  rw [huser, resolveUserClaims_eq]
  split_ifs with hrevoked hexpired hmerged
  · simp [hrevoked]
  · simp [Int.not_le.mpr hexpired]
  · simp [hmerged]
  · simp only [not_ne_iff.mp hrevoked, Int.not_lt.mp hexpired, not_ne_iff.mp hmerged, true_and,
      Except.ok.injEq]

theorem userinfo_eq_ok_iff {claims : ResolvedProfile} :
    userinfo columns jti now db = .ok claims ↔
      ∃ row user, (db.oidcAccessToken.find? fun t => t.jti = jti) = some row ∧
        findUser row.userId db.user = some user ∧ (columns.token jti).revokedAt = none ∧
        now ≤ (columns.token jti).expiresAt ∧ user.mergedIntoUserId = none ∧
        granted columns (columns.token jti) db row.userId row.clientId = claims := by
  unfold userinfo
  cases hrow : db.oidcAccessToken.find? fun t => t.jti = jti with
  | none => simp
  | some row =>
    cases huser : findUser row.userId db.user with
    | none => simp [huser]
    | some user => simp [huser, answer_eq_ok_iff (findUser_id huser)]

/-- A merge tombstones the donor, and no other account. -/
theorem findUser_settledDb {survivor donor : User} {recordId candidate : String}
    {subs : List SubAtClient} {p : User → Bool} {entries : List NullifierEntry} {u : UserId}
    (hu : u ≠ donor.id) :
    (findUser u (settledDb survivor donor now recordId subs p candidate entries db).user).map
        (·.mergedIntoUserId) = (findUser u db.user).map (·.mergedIntoUserId) := by
  change (findUser u ((mergedUsers survivor.id donor.id now _ db.user).map
    (claimHandle p candidate))).map _ = _
  have hclaim (y : User) : (claimHandle p candidate y).mergedIntoUserId = y.mergedIntoUserId := by
    unfold claimHandle
    split_ifs <;> rfl
  rw [findUser_map (by intro x; unfold claimHandle; split_ifs <;> rfl), mergedUsers,
    findUser_mapWhere (by intro x; rfl), if_neg hu, findUser_mapWhere (by intro x; rfl)]
  split_ifs <;> simp [Function.comp_def, hclaim, withBan]

/-- **What a merge changes of the claims of a token.** A call after the merge is refused or
answered as a call before it, exactly if the token is not a live one of the donor or the
accounts show the same of what it grants. -/
theorem userinfo_unchanged_iff {pairwise : UserId → ClientId → String} {inputs : MergeInputs}
    {summary : MergeSummary} (hdb : db.Consistent) (hnow : now ≤ now')
    (hmerge : mergeAccounts pairwise inputs S D db = .ok (db', summary)) :
    Unchanged (userinfo columns jti now db) (userinfo columns jti now' db') ↔
      KeepsProfile columns jti now' S D db := by
  obtain ⟨hne, survivor, donor, p, entries, hready, -, rfl, -⟩ :=
    settledDb_of_mergeAccounts hdb hmerge
  obtain ⟨rfl, rfl⟩ := hready.ids
  have htoken := find?_mapWhere (p := fun t : OidcAccessToken => owner t = some donor.id)
    (f := setOwner survivor.id) (q := fun t => t.jti = jti) (t := db.oidcAccessToken) fun _ => rfl
  -- A live account stays live, unless it is the donor, and no other account is revived.
  have hlive {u : UserId} (hu : u ≠ donor.id) :
      (∃ user, findUser u (settledDb survivor donor inputs.now inputs.recordId
          (precomputeSubs pairwise donor.id db) p inputs.handleCandidate entries db).user =
          some user ∧ user.mergedIntoUserId = none) ↔
        ∃ user, findUser u db.user = some user ∧ user.mergedIntoUserId = none := by
    rw [← Option.map_eq_some_iff, ← Option.map_eq_some_iff, findUser_settledDb hu]
  cases hrow : db.oidcAccessToken.find? fun t => t.jti = jti with
  | none =>
    rw [hrow] at htoken
    constructor
    · intro _ row hfound
      rw [hrow] at hfound
      cases hfound
    · intro _ claims hafter
      obtain ⟨row, _, hfound, -⟩ := userinfo_eq_ok_iff.mp hafter
      cases htoken.symm.trans hfound
  | some row =>
    rw [hrow, Option.map_some] at htoken
    by_cases hD : row.userId = donor.id
    · -- A token of the donor is re-pointed at the survivor.
      rw [if_pos (by simp [owner, hD])] at htoken
      constructor
      · intro hsame row' hfound _ hrevoked hexpires survivor' hsurvivor htomb
        obtain rfl := Option.some.inj (hrow.symm.trans hfound)
        obtain ⟨user, huser, huserTomb⟩ := (hlive hne).mpr ⟨survivor', hsurvivor, htomb⟩
        have hbefore := hsame _ (userinfo_eq_ok_iff.mpr
          ⟨_, user, htoken, huser, hrevoked, hexpires, huserTomb, rfl⟩)
        obtain ⟨row₀, _, hrow₀, -, -, -, -, hgranted⟩ := userinfo_eq_ok_iff.mp hbefore
        obtain rfl := Option.some.inj (hrow.symm.trans hrow₀)
        rw [hD] at hgranted
        exact granted_eq_iff.mp hgranted.symm
      · intro hkeeps claims hafter
        obtain ⟨row', user, hfound, huser, hrevoked, hexpires, htomb, rfl⟩ :=
          userinfo_eq_ok_iff.mp hafter
        obtain rfl := Option.some.inj (htoken.symm.trans hfound)
        obtain ⟨survivor', hsurvivor, hsurvivorTomb⟩ := (hlive hne).mp ⟨user, huser, htomb⟩
        have hgranted := granted_eq_iff.mpr
          (hkeeps row hrow hD hrevoked hexpires survivor' hsurvivor hsurvivorTomb)
        refine userinfo_eq_ok_iff.mpr ⟨row, donor, hrow, hD ▸ hready.donor_found, hrevoked,
          Int.le_trans hnow hexpires, hready.untombstoned, ?_⟩
        rw [hD]
        exact hgranted.symm
    · -- Any other token is answered as before.
      rw [if_neg (by simp [owner, hD])] at htoken
      constructor
      · intro _ row' hfound hD'
        obtain rfl := Option.some.inj (hrow.symm.trans hfound)
        exact absurd hD' hD
      · intro _ claims hafter
        obtain ⟨row', user, hfound, huser, hrevoked, hexpires, htomb, rfl⟩ :=
          userinfo_eq_ok_iff.mp hafter
        obtain rfl := Option.some.inj (htoken.symm.trans hfound)
        obtain ⟨user₀, huser₀, htomb₀⟩ := (hlive hD).mp ⟨user, huser, htomb⟩
        exact userinfo_eq_ok_iff.mpr ⟨row, user₀, hrow, huser₀, hrevoked,
          Int.le_trans hnow hexpires, htomb₀, rfl⟩

end Claims

/-- Two accounts with a token of the second at a shop, where it goes by another name. -/
def shopDb : Db where
  user := [liveUser "A" none, liveUser "B" none]
  oidcAccessToken := [⟨"t1", "B", "shop"⟩]
  oidcProfileOverride := [⟨"B", "shop", some "bookworm", none⟩]

/-- The token grants the name, and the accounts have global names. -/
def shopColumns (nameOfA : String) : Columns where
  profile := fun u => if u = "A" then ⟨some nameOfA, none⟩ else ⟨some "Bob", none⟩
  token := fun _ => ⟨100, none, true, false⟩
  personasExist := true

theorem consistent_shopDb : shopDb.Consistent := by
  constructor <;> decide

/-- Both accounts go by one name at the shop, and the claims stay. -/
theorem sameName_unchanged : ∃ db' summary,
    mergeAccounts (fun u c => u ++ c) sampleInputs "A" "B" shopDb = .ok (db', summary) ∧
      userinfo (shopColumns "bookworm") "t1" 1 db' = .ok ⟨some "bookworm", none⟩ ∧
      Unchanged (userinfo (shopColumns "bookworm") "t1" 0 shopDb)
        (userinfo (shopColumns "bookworm") "t1" 1 db') := by
  have hmerge : mergeAccounts (fun u c => u ++ c) sampleInputs "A" "B" shopDb = .ok (_, _) := rfl
  refine ⟨_, _, hmerge, rfl, (userinfo_unchanged_iff consistent_shopDb (by decide) hmerge).mpr ?_⟩
  intro row hrow _ _ _ _ _ _
  cases hrow
  exact ⟨fun _ => rfl, nofun⟩

/-- The donor is `bookworm` at the shop. After the merge its token is answered with the
global name of the survivor, whom the shop has never seen. -/
theorem donorToken_shows_survivor : shopDb.Consistent ∧ ∃ db' summary,
    mergeAccounts (fun u c => u ++ c) sampleInputs "A" "B" shopDb = .ok (db', summary) ∧
      userinfo (shopColumns "Alice") "t1" 0 shopDb = .ok ⟨some "bookworm", none⟩ ∧
      userinfo (shopColumns "Alice") "t1" 1 db' = .ok ⟨some "Alice", none⟩ ∧
      ¬ Unchanged (userinfo (shopColumns "Alice") "t1" 0 shopDb)
        (userinfo (shopColumns "Alice") "t1" 1 db') := by
  refine ⟨consistent_shopDb, _, _, rfl, rfl, rfl, fun hsame => ?_⟩
  have hclaims : Except.ok (⟨some "bookworm", none⟩ : ResolvedProfile) = .ok ⟨some "Alice", none⟩ :=
    hsame ⟨some "Alice", none⟩ rfl
  exact absurd (Except.ok.inj hclaims) (by decide)

end Minister.ProfileClaims

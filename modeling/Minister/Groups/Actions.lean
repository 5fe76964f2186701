import Minister.StatusList.Calls
import Minister.Vc.IssueBadge

/-!
# Groups and their members

The server actions of `group-actions`: `createGroup`, `deleteGroup`, `addMember`, `removeMember`
and `setMemberRole`. Each of them first reads what it has to check, one statement after the other
and outside of every transaction, and then writes in one transaction. `advance` takes a call one
statement further; a transaction counts as one statement, at its commit: its writes are to rows it
locks, or to rows nobody else can see before the commit. The exception is `deleteGroup`, whose
transaction reads the ids of the members before it deletes the group.

`revokeStatusAnchor` is called within the transactions. What a transaction hands to it is part of
its outcome.

Sessions are given by the account that acts. The audit log and `revalidatePath` are left out, and so
are the columns of a group that no action reads (`displayName`, `description`, `verified`) and those
of a membership (`isPublic`, `addedBy`). A role column holds one of the three roles.
-/

namespace Minister.Groups

open Codec Relational Vc
open StatusLists (Revocation)

/-! ### Roles -/

inductive GroupRole
  | member
  | admin
  | owner
  deriving DecidableEq, Repr

def roleRank : GroupRole → Nat
  | .member => 1
  | .admin => 2
  | .owner => 3

def roleAtLeast (role floor : GroupRole) : Bool := roleRank floor ≤ roleRank role

/-- The role as the badge names it. -/
def GroupRole.text : GroupRole → String
  | .member => "member"
  | .admin => "admin"
  | .owner => "owner"

inductive AssignableRole
  | admin
  | member
  deriving DecidableEq, Repr

def AssignableRole.role : AssignableRole → GroupRole
  | .admin => .admin
  | .member => .member

/-! ### Tables -/

/-- A row of `GroupMembership`. -/
structure Membership where
  id : String
  groupId : String
  userId : UserId
  role : GroupRole
  deriving DecidableEq, Repr

structure GroupSlugTombstone where
  slug : String
  deletedAt : Timestamp
  deriving DecidableEq, Repr

instance : Constrained Group where
  clash a b := a.id == b.id || a.slug == b.slug

instance : Constrained Membership where
  clash a b := a.id == b.id || (a.groupId == b.groupId && a.userId == b.userId)

structure Tables where
  users : List UserId := []
  groups : List Group := []
  memberships : List Membership := []
  slugTombstones : List GroupSlugTombstone := []
  badges : List StoredBadge := []

/-- The row is that of the account in the group. -/
def Membership.isOf (groupId : String) (userId : UserId) (m : Membership) : Bool :=
  m.groupId = groupId ∧ m.userId = userId

/-- `groupMembership.findUnique` by group and account. -/
def Tables.findMembership (t : Tables) (groupId : String) (userId : UserId) : Option Membership :=
  t.memberships.find? (Membership.isOf groupId userId)

def Tables.findGroup (t : Tables) (groupId : String) : Option Group :=
  t.groups.find? fun g => g.id = groupId

/-! ### Permissions -/

structure GroupRoleContext where
  role : GroupRole
  group : Group
  deriving DecidableEq, Repr

/-- The foreign key leaves no membership without its group. -/
def requireGroupRole (t : Tables) (groupId : String) (userId : UserId) (minRole : GroupRole) :
    Except String GroupRoleContext :=
  match t.findMembership groupId userId, t.findGroup groupId with
  | some membership, some group =>
    if roleAtLeast membership.role minRole then .ok ⟨membership.role, group⟩
    else .error "You do not have permission to perform this action on this group."
  | _, _ => .error "You are not a member of this group."

/-! ### Inputs -/

structure CreateGroupInput where
  slug : String
  displayName : String
  description : Option String := none

/-- `value.trim()`. -/
def trimmed (value : String) : String := String.ofList (Oidc.trim value.toList)

/-- The slug as `SlugSchema` rewrites it. -/
def CreateGroupInput.parsedSlug (env : TextEnv) (input : CreateGroupInput) : String :=
  env.toLowerCase (trimmed input.slug)

/-- The first issue that `safeParse` reports, if any. -/
def CreateGroupInput.issue (env : TextEnv) (input : CreateGroupInput) : Option String :=
  let slug := input.parsedSlug env
  let displayName := trimmed input.displayName
  if Oidc.jsLength slug < 3 then some "Group name must be at least 3 characters."
  else if 32 < Oidc.jsLength slug then some "Group name must be at most 32 characters."
  else if isSlug slug = false then some "Use lowercase letters, numbers, and single hyphens only."
  else if Oidc.jsLength displayName < 1 then some "A display name is required."
  else if 80 < Oidc.jsLength displayName then some "String must contain at most 80 character(s)"
  else if input.description.any fun d => 500 < Oidc.jsLength (trimmed d) then
    some "String must contain at most 500 character(s)"
  else none

/-- `RESERVED_GROUP_SLUGS`. -/
def reservedGroupSlugs : List String :=
  ["admin", "api", "app", "apps", "auth", "oidc", "login", "logout", "signin", "signout",
    "settings", "profile", "account", "u", "user", "users", "badge", "badges", "group", "groups",
    "share", "shares", "new", "well-known", "static", "assets", "public", "help", "support",
    "about", "terms", "privacy", "security", "status", "docs", "blog", "root", "system", "null",
    "undefined", "minister", "ministry", "official", "verified", "ethereum", "bitcoin", "openai",
    "google", "apple", "microsoft", "amazon", "meta", "facebook", "twitter", "discord", "github"]

def isReservedGroupSlug (env : TextEnv) (slug : String) : Bool :=
  env.toLowerCase slug ∈ reservedGroupSlugs

/-- `SLUG_TOMBSTONE_MS`. -/
def slugTombstoneMs : Int := 30 * 24 * 60 * 60 * 1000

structure GroupConfigValues where
  foundingMinBucket : Nat
  maxOwnedGroups : Nat
  deriving DecidableEq, Repr

/-- A founding that passed its schema. -/
structure Founding where
  userId : UserId
  slug : String
  deriving DecidableEq, Repr

structure GroupInput where
  actorId : UserId
  groupId : String
  deriving DecidableEq, Repr

structure TargetInput where
  actorId : UserId
  groupId : String
  targetUserId : UserId
  deriving DecidableEq, Repr

structure RoleInput extends TargetInput where
  role : AssignableRole
  deriving DecidableEq, Repr

inductive Request
  | createGroup (userId : UserId) (input : CreateGroupInput)
  | deleteGroup (input : GroupInput)
  | addMember (input : RoleInput)
  | removeMember (input : TargetInput)
  | setMemberRole (input : RoleInput)

/-! ### Calls -/

inductive Result
  | ok
  | created (groupId slug : String)
  | refused (error : String)
  | thrown (error : ServerError)
  deriving DecidableEq, Repr

/-- Where a call stands: what it reads or writes next, with what it has read so far. -/
inductive Call
  | checkingSlug (f : Founding)
  | checkingTombstone (f : Founding)
  | checkingQuota (f : Founding)
  | founding (f : Founding)
  | authorizingDelete (r : GroupInput)
  | readingMembers (r : GroupInput) (group : Group)
  | deleting (r : GroupInput) (group : Group) (memberIds : List String)
  | authorizingAdd (r : RoleInput)
  | findingUser (r : RoleInput) (ctx : GroupRoleContext)
  | findingMember (r : RoleInput) (ctx : GroupRoleContext)
  | adding (r : RoleInput) (ctx : GroupRoleContext)
  | authorizingRemove (r : TargetInput)
  | findingTarget (r : TargetInput) (ctx : GroupRoleContext)
  | removing (r : TargetInput) (ctx : GroupRoleContext) (target : Membership)
  | authorizingRole (r : RoleInput)
  | findingRole (r : RoleInput)
  | settingRole (r : RoleInput) (target : Membership)
  | done (result : Result)
  deriving DecidableEq, Repr

/-- The call up to its first statement. -/
def Request.start (env : TextEnv) : Request → Call
  | .createGroup userId input =>
    match input.issue env with
    | some issue => .done (.refused issue)
    | none =>
      if isReservedGroupSlug env (input.parsedSlug env) then
        .done (.refused "That group name is reserved and can't be used.")
      else .checkingSlug ⟨userId, input.parsedSlug env⟩
  | .deleteGroup r =>
    if Oidc.isCuid r.groupId then .authorizingDelete r else .done (.refused "Invalid cuid")
  | .addMember r =>
    if Oidc.isCuid r.groupId ∧ Oidc.isCuid r.targetUserId then .authorizingAdd r
    else .done (.refused "Invalid cuid")
  | .removeMember r =>
    if Oidc.isCuid r.groupId ∧ Oidc.isCuid r.targetUserId then .authorizingRemove r
    else .done (.refused "Invalid cuid")
  | .setMemberRole r =>
    if Oidc.isCuid r.groupId ∧ Oidc.isCuid r.targetUserId then .authorizingRole r
    else .done (.refused "Invalid cuid")

/-- What a statement takes from outside: the clock, the configuration and the account's bucket if
they could be had, and the ids of new rows. -/
structure Outside where
  nowMs : Nat := 0
  config : Option GroupConfigValues := none
  bucket : Option Nat := none
  groupId : String := ""
  membershipId : String := ""
  minting : Minting := ⟨"", 0, 0⟩

/-! ### Transactions -/

/-- `groupMembershipBadge`, for the account. The claims are the attributes. -/
def groupMembershipBadge (userId : UserId) (slug : String) (role : GroupRole)
    (groupId membershipId : String) : IssueBadgeArgs :=
  let claim : Members := [("group", .str slug), ("role", .str role.text), ("groupId", .str groupId)]
  { userId
    badge := ⟨groupMembershipBadgeType, claim, claim, none⟩
    statusAnchor := some (groupMembershipAnchor membershipId) }

section Transactions

variable (env : IssuerEnv) (o : Outside) (t : Tables)

def createGroupTx (f : Founding) : Except ServerError Tables := do
  let groups ← stmt (create ⟨o.groupId, f.slug, f.userId⟩ t.groups)
  let memberships ← stmt (create ⟨o.membershipId, o.groupId, f.userId, .owner⟩ t.memberships)
  let badges ← issueBadge env
    (groupMembershipBadge f.userId f.slug .owner o.groupId o.membershipId) o.minting t.badges
  return { t with
    groups, memberships, badges
    slugTombstones := deleteMany (fun s => s.slug = f.slug) t.slugTombstones }

/-- The insert is refused if the group is gone. -/
def requireReferenced (groupId : String) : Except ServerError Unit :=
  if (t.findGroup groupId).isSome then .ok ()
  else .error (.thrown "Foreign key constraint violated")

def addMemberTx (r : RoleInput) (ctx : GroupRoleContext) : Except ServerError Tables := do
  let memberships ← stmt
    (create ⟨o.membershipId, r.groupId, r.targetUserId, r.role.role⟩ t.memberships)
  requireReferenced t r.groupId
  let badges ← issueBadge env
    (groupMembershipBadge r.targetUserId ctx.group.slug r.role.role r.groupId o.membershipId)
    o.minting t.badges
  return { t with memberships, badges }

/-- The row is deleted by group and account. -/
def removeMemberTx (r : TargetInput) : Except ServerError Tables :=
  if t.memberships.any (Membership.isOf r.groupId r.targetUserId) then
    .ok { t with
      memberships := deleteMany (Membership.isOf r.groupId r.targetUserId) t.memberships }
  else .error (.db .recordNotFound)

/-- The row is updated by group and account. -/
def setMemberRoleTx (r : RoleInput) : Except ServerError Tables :=
  if t.memberships.any (Membership.isOf r.groupId r.targetUserId) then
    .ok { t with
      memberships := mapWhere (Membership.isOf r.groupId r.targetUserId)
        (fun m => { m with role := r.role.role }) t.memberships }
  else .error (.db .recordNotFound)

/-- The delete cascades to the memberships of the group. -/
def deleteGroupTx (r : GroupInput) (group : Group) : Except ServerError Tables :=
  if (t.findGroup r.groupId).isSome then
    .ok { t with
      groups := deleteMany (fun g => g.id = r.groupId) t.groups
      memberships := deleteMany (fun m => m.groupId = r.groupId) t.memberships
      slugTombstones :=
        deleteMany (fun s => s.slug = group.slug) t.slugTombstones ++ [⟨group.slug, o.nowMs⟩] }
  else .error (.db .recordNotFound)

end Transactions

/-! ### Statements -/

/-- The tables, what was handed to `revokeStatusAnchor`, and where the call stands. -/
structure Outcome where
  tables : Tables
  revocations : List Revocation := []
  call : Call

/-- A statement that reads. -/
def reads (t : Tables) (call : Call) : Outcome := { tables := t, call }

/-- A transaction that committed, or was rolled back by what was thrown. -/
def commits (t : Tables) (tx : Except ServerError Tables) (revocations : List Revocation)
    (committed : Result) (failed : ServerError → Result) : Outcome :=
  match tx with
  | .ok tables => { tables, revocations, call := .done committed }
  | .error e => reads t (.done (failed e))

/-- A unique violation gets a message of its own. -/
def onConflict (message : String) : ServerError → Result
  | .db .uniqueViolation => .refused message
  | e => .thrown e

def revocationOf (o : Outside) (reason membershipId : String) : Revocation :=
  ⟨groupMembershipAnchor membershipId, reason, o.nowMs, true⟩

section Reads

variable (o : Outside) (t : Tables)

def checkSlug (f : Founding) : Call :=
  if t.groups.any fun g => g.slug = f.slug then
    .done (.refused "That group name is already taken.")
  else .checkingTombstone f

def checkTombstone (f : Founding) : Call :=
  match t.slugTombstones.find? fun s => s.slug = f.slug with
  | some tombstone =>
    if o.nowMs - tombstone.deletedAt < slugTombstoneMs then
      .done (.refused
        "That group name was recently used and isn't available yet. Please choose another.")
    else .checkingQuota f
  | none => .checkingQuota f

def quotaMessage (max : Nat) : String :=
  s!"You already own the maximum of {max} groups. Delete or transfer one to free a slot."

def strengthMessage (floor : Nat) : String :=
  s!"Founding a group needs a stronger account (strength {floor}+). Add more verifications first."

/-- `loadGroupConfig`, the count of owned groups, and `computeUserSybilBucket`. -/
def checkQuota (f : Founding) : Call :=
  match o.config with
  | none => .done (.refused "Group founding is temporarily unavailable. Try again later.")
  | some config =>
    if config.maxOwnedGroups ≤ (t.groups.filter fun g => g.ownerUserId = f.userId).length then
      .done (.refused (quotaMessage config.maxOwnedGroups))
    else
      match o.bucket with
      | none => .done (.refused "Couldn't verify your account strength. Try again later.")
      | some bucket =>
        if bucket < config.foundingMinBucket then
          .done (.refused (strengthMessage config.foundingMinBucket))
        else .founding f

def authorizeDelete (r : GroupInput) : Call :=
  match requireGroupRole t r.groupId r.actorId .owner with
  | .error e => .done (.refused e)
  | .ok ctx => .readingMembers r ctx.group

def memberIds (groupId : String) : List String :=
  (findMany (fun m => m.groupId = groupId) t.memberships).map (·.id)

def authorizeAdd (r : RoleInput) : Call :=
  match requireGroupRole t r.groupId r.actorId .admin with
  | .error e => .done (.refused e)
  | .ok ctx =>
    if r.role = .admin ∧ ctx.role ≠ .owner then
      .done (.refused "Only the group owner can grant the admin role.")
    else .findingUser r ctx

def findUser (r : RoleInput) (ctx : GroupRoleContext) : Call :=
  if r.targetUserId ∈ t.users then .findingMember r ctx else .done (.refused "No such user.")

def findMember (r : RoleInput) (ctx : GroupRoleContext) : Call :=
  match t.findMembership r.groupId r.targetUserId with
  | some _ => .done (.refused "That user is already a member of this group.")
  | none => .adding r ctx

def authorizeRemove (r : TargetInput) : Call :=
  match requireGroupRole t r.groupId r.actorId .admin with
  | .error e => .done (.refused e)
  | .ok ctx => .findingTarget r ctx

def findTarget (r : TargetInput) (ctx : GroupRoleContext) : Call :=
  match t.findMembership r.groupId r.targetUserId with
  | none => .done (.refused "That user is not a member of this group.")
  | some target =>
    if target.role = .owner then
      .done (.refused
        "The group owner can't be removed. Transfer ownership or delete the group.")
    else if target.role = .admin ∧ ctx.role ≠ .owner then
      .done (.refused "Only the group owner can remove an admin.")
    else .removing r ctx target

def authorizeRole (r : RoleInput) : Call :=
  match requireGroupRole t r.groupId r.actorId .owner with
  | .error e => .done (.refused e)
  | .ok _ => .findingRole r

def findRole (r : RoleInput) : Call :=
  match t.findMembership r.groupId r.targetUserId with
  | none => .done (.refused "That user is not a member of this group.")
  | some target =>
    if target.role = .owner then .done (.refused "The owner's role can't be changed here.")
    else if target.role = r.role.role then .done .ok
    else .settingRole r target

end Reads

def advance (env : IssuerEnv) (o : Outside) (t : Tables) : Call → Outcome
  | .checkingSlug f => reads t (checkSlug t f)
  | .checkingTombstone f => reads t (checkTombstone o t f)
  | .checkingQuota f => reads t (checkQuota o t f)
  | .founding f =>
    commits t (createGroupTx env o t f) [] (.created o.groupId f.slug)
      (onConflict "That group name is already taken.")
  | .authorizingDelete r => reads t (authorizeDelete t r)
  | .readingMembers r group => reads t (.deleting r group (memberIds t r.groupId))
  | .deleting r group ids =>
    commits t (deleteGroupTx o t r group) (ids.map (revocationOf o "group.deleted")) .ok .thrown
  | .authorizingAdd r => reads t (authorizeAdd t r)
  | .findingUser r ctx => reads t (findUser t r ctx)
  | .findingMember r ctx => reads t (findMember t r ctx)
  | .adding r ctx =>
    commits t (addMemberTx env o t r ctx) [] .ok
      (onConflict "That user is already a member of this group.")
  | .authorizingRemove r => reads t (authorizeRemove t r)
  | .findingTarget r ctx => reads t (findTarget t r ctx)
  | .removing r _ target =>
    commits t (removeMemberTx t r) [revocationOf o "group.member_removed" target.id] .ok .thrown
  | .authorizingRole r => reads t (authorizeRole t r)
  | .findingRole r => reads t (findRole t r)
  | .settingRole r _ => commits t (setMemberRoleTx t r) [] .ok .thrown
  | .done result => reads t (.done result)

/-! ### What a statement can do -/

/-- How a statement changes the tables, with what it hands to `revokeStatusAnchor`. -/
inductive Turn (env : IssuerEnv) (o : Outside) (t : Tables) : Call → Tables → List Revocation → Prop
  | reads {c : Call} : Turn env o t c t []
  | founds {f : Founding} {t' : Tables} (h : createGroupTx env o t f = .ok t') :
    Turn env o t (.founding f) t' []
  | adds {r : RoleInput} {ctx : GroupRoleContext} {t' : Tables}
    (h : addMemberTx env o t r ctx = .ok t') : Turn env o t (.adding r ctx) t' []
  | removes {r : TargetInput} {ctx : GroupRoleContext} {target : Membership} {t' : Tables}
    (h : removeMemberTx t r = .ok t') :
    Turn env o t (.removing r ctx target) t' [revocationOf o "group.member_removed" target.id]
  | sets {r : RoleInput} {target : Membership} {t' : Tables} (h : setMemberRoleTx t r = .ok t') :
    Turn env o t (.settingRole r target) t' []
  | deletes {r : GroupInput} {group : Group} {ids : List String} {t' : Tables}
    (h : deleteGroupTx o t r group = .ok t') :
    Turn env o t (.deleting r group ids) t' (ids.map (revocationOf o "group.deleted"))

section Turn

variable {env : IssuerEnv} {o : Outside} {t t' : Tables} {c : Call}

theorem turn_of_commits {tx : Except ServerError Tables} {revocations : List Revocation}
    {committed : Result} {failed : ServerError → Result}
    (h : ∀ tables, tx = .ok tables → Turn env o t c tables revocations) :
    Turn env o t c (commits t tx revocations committed failed).tables
      (commits t tx revocations committed failed).revocations := by
  cases tx with
  | ok tables => exact h tables rfl
  | error e => exact .reads

theorem turn_of_advance :
    Turn env o t c (advance env o t c).tables (advance env o t c).revocations := by
  cases c with
  | founding f => exact turn_of_commits fun _ => .founds
  | deleting r group ids => exact turn_of_commits fun _ => .deletes
  | adding r ctx => exact turn_of_commits fun _ => .adds
  | removing r ctx target => exact turn_of_commits fun _ => .removes
  | settingRole r target => exact turn_of_commits fun _ => .sets
  | _ => exact .reads

/-! ### What a transaction leaves -/

theorem createGroupTx_eq_ok {f : Founding} (h : createGroupTx env o t f = .ok t') :
    ∃ badges, issueBadge env
        (groupMembershipBadge f.userId f.slug .owner o.groupId o.membershipId) o.minting t.badges =
          .ok badges ∧
      Consistent (t.groups ++ [⟨o.groupId, f.slug, f.userId⟩]) ∧
      Consistent (t.memberships ++ [⟨o.membershipId, o.groupId, f.userId, .owner⟩]) ∧
      t' = { t with
        groups := t.groups ++ [⟨o.groupId, f.slug, f.userId⟩]
        memberships := t.memberships ++ [⟨o.membershipId, o.groupId, f.userId, .owner⟩]
        badges
        slugTombstones := deleteMany (fun s => s.slug = f.slug) t.slugTombstones } := by
  obtain ⟨groups, hgroups, h⟩ := bind_eq_ok_iff.mp h
  obtain ⟨memberships, hmemberships, h⟩ := bind_eq_ok_iff.mp h
  obtain ⟨badges, hbadges, h⟩ := bind_eq_ok_iff.mp h
  obtain ⟨hg, rfl⟩ := create_eq_ok_iff.mp (stmt_eq_ok_iff.mp hgroups)
  obtain ⟨hm, rfl⟩ := create_eq_ok_iff.mp (stmt_eq_ok_iff.mp hmemberships)
  exact ⟨badges, hbadges, hg, hm, (Except.ok.inj h).symm⟩

theorem addMemberTx_eq_ok {r : RoleInput} {ctx : GroupRoleContext}
    (h : addMemberTx env o t r ctx = .ok t') :
    ∃ badges, issueBadge env
        (groupMembershipBadge r.targetUserId ctx.group.slug r.role.role r.groupId o.membershipId)
        o.minting t.badges = .ok badges ∧
      (t.findGroup r.groupId).isSome = true ∧
      Consistent (t.memberships ++ [⟨o.membershipId, r.groupId, r.targetUserId, r.role.role⟩]) ∧
      t' = { t with
        memberships :=
          t.memberships ++ [⟨o.membershipId, r.groupId, r.targetUserId, r.role.role⟩]
        badges } := by
  obtain ⟨memberships, hmemberships, h⟩ := bind_eq_ok_iff.mp h
  obtain ⟨_, hgroup, h⟩ := bind_eq_ok_iff.mp h
  obtain ⟨badges, hbadges, h⟩ := bind_eq_ok_iff.mp h
  obtain ⟨hm, rfl⟩ := create_eq_ok_iff.mp (stmt_eq_ok_iff.mp hmemberships)
  unfold requireReferenced at hgroup
  split_ifs at hgroup with hsome
  exact ⟨badges, hbadges, hsome, hm, (Except.ok.inj h).symm⟩

theorem removeMemberTx_eq_ok {r : TargetInput} (h : removeMemberTx t r = .ok t') :
    t' = { t with
      memberships := deleteMany (Membership.isOf r.groupId r.targetUserId) t.memberships } := by
  unfold removeMemberTx at h
  split_ifs at h
  exact (Except.ok.inj h).symm

theorem setMemberRoleTx_eq_ok {r : RoleInput} (h : setMemberRoleTx t r = .ok t') :
    t' = { t with
      memberships := mapWhere (Membership.isOf r.groupId r.targetUserId)
        (fun m => { m with role := r.role.role }) t.memberships } := by
  unfold setMemberRoleTx at h
  split_ifs at h
  exact (Except.ok.inj h).symm

theorem deleteGroupTx_eq_ok {r : GroupInput} {group : Group}
    (h : deleteGroupTx o t r group = .ok t') :
    t' = { t with
      groups := deleteMany (fun g => g.id = r.groupId) t.groups
      memberships := deleteMany (fun m => m.groupId = r.groupId) t.memberships
      slugTombstones := deleteMany (fun s => s.slug = group.slug) t.slugTombstones ++
        [⟨group.slug, o.nowMs⟩] } := by
  unfold deleteGroupTx at h
  split_ifs at h
  exact (Except.ok.inj h).symm

end Turn

/-! ### Lookups -/

section Lookups

variable {t : Tables} {groupId : String} {userId : UserId} {m : Membership}

theorem isOf_iff : m.isOf groupId userId = true ↔ m.groupId = groupId ∧ m.userId = userId := by
  simp [Membership.isOf]

theorem findMembership_eq_some (h : t.findMembership groupId userId = some m) :
    m ∈ t.memberships ∧ m.groupId = groupId ∧ m.userId = userId :=
  ⟨List.mem_of_find?_eq_some h, isOf_iff.mp (List.find?_some h)⟩

theorem eq_of_membershipId (h : Consistent t.memberships) {m' : Membership} (hm : m ∈ t.memberships)
    (hm' : m' ∈ t.memberships) (hid : m.id = m'.id) : m = m' :=
  h.eq_of_clash hm hm' (by simp [clash, hid])

theorem requireGroupRole_eq_ok {minRole : GroupRole} {ctx : GroupRoleContext}
    (h : requireGroupRole t groupId userId minRole = .ok ctx) :
    ∃ m, t.findMembership groupId userId = some m ∧ ctx.role = m.role ∧
      roleAtLeast m.role minRole = true ∧ t.findGroup groupId = some ctx.group := by
  unfold requireGroupRole at h
  split at h
  · rename_i m group hm hgroup
    split_ifs at h with hrole
    cases h
    exact ⟨m, hm, rfl, hrole, hgroup⟩
  · cases h

end Lookups

end Minister.Groups

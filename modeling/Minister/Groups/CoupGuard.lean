import Minister.Groups.Actions
import Minister.Transition.Pool
import Minister.Transition.Run

/-!
# The coup guard

A group has one owner. Admins add and remove members; what makes or unmakes an admin is the owner's.
`addMember`, `removeMember` and `setMemberRole` check the role of the acting account, and of the
account they act on, before the transaction that acts. Calls run side by side, one statement at a
time, so a role can change between the check and the commit.

The owner's row cannot: no call inserts one, and no call gets past its checks with the owner as its
target. So what was checked of the owner still holds at the commit, and what was checked of anybody
else may not.
-/

namespace Minister.CoupGuard

open Relational Transition Groups Vc

/-! ### Runs -/

/-- A change to a membership: who made it, with the role they had when it was committed, and the
role of the target before and after. -/
structure Change where
  actorId : UserId
  actorRole : Option GroupRole
  groupId : String
  targetUserId : UserId
  before : Option GroupRole
  after : Option GroupRole
  deriving DecidableEq, Repr

/-- The tables, the calls made so far, and every change; the code keeps no such log. -/
structure State where
  tables : Tables
  calls : List Call := []
  log : List Change := []

inductive Action
  | addMember (r : RoleInput)
  | removeMember (r : TargetInput)
  | setMemberRole (r : RoleInput)
  | advance (i : Nat) (o : Outside)

def roleOf (t : Tables) (groupId : String) (userId : UserId) : Option GroupRole :=
  (t.findMembership groupId userId).map (·.role)

/-- Who a call acts on, once it is about to. -/
def acting? : Call → Option TargetInput
  | .adding r _ => some r.toTargetInput
  | .removing r _ _ => some r
  | .settingRole r _ => some r.toTargetInput
  | _ => none

def changeOf (before after : Tables) (r : TargetInput) : List Change :=
  let change : Change :=
    ⟨r.actorId, roleOf before r.groupId r.actorId, r.groupId, r.targetUserId,
      roleOf before r.groupId r.targetUserId, roleOf after r.groupId r.targetUserId⟩
  if change.before = change.after then [] else [change]

def changesOf (before after : Tables) (c : Call) : List Change :=
  match acting? c with
  | some r => changeOf before after r
  | none => []

def State.start (env : IssuerEnv) (s : State) (request : Request) : State :=
  { s with calls := s.calls ++ [request.start env.text] }

def State.advance (env : IssuerEnv) (s : State) (i : Nat) (o : Outside) : Option State :=
  match s.calls[i]? with
  | none | some (.done _) => none
  | some c =>
    let out := Groups.advance env o s.tables c
    some {
      tables := out.tables
      calls := s.calls.set i out.call
      log := s.log ++ changesOf s.tables out.tables c }

def step (env : IssuerEnv) (s : State) : Action → Option State
  | .addMember r => some (s.start env (.addMember r))
  | .removeMember r => some (s.start env (.removeMember r))
  | .setMemberRole r => some (s.start env (.setMemberRole r))
  | .advance i o => s.advance env i o

/-! ### The guard -/

/-- The account has the owner row of the group. -/
def OwnerIs (t : Tables) (groupId : String) (userId : UserId) : Prop :=
  ∃ m ∈ t.memberships, m.groupId = groupId ∧ m.userId = userId ∧ m.role = .owner

/-- In every group the founder's owner row is there, and is the only owner row. -/
structure Founded (t : Tables) : Prop where
  consistent : Consistent t.memberships
  founder : ∀ g ∈ t.groups, OwnerIs t g.id g.ownerUserId
  only : ∀ g ∈ t.groups, ∀ userId, OwnerIs t g.id userId → userId = g.ownerUserId

/-- What makes or unmakes an admin is done by the owner, and who joins or leaves does so by an admin
or the owner, in their role at the commit. -/
structure Change.Guarded (c : Change) : Prop where
  admins : c.before = some .admin ∨ c.after = some .admin → c.actorRole = some .owner
  members : c.before = none ∨ c.after = none →
    c.actorRole = some .admin ∨ c.actorRole = some .owner

structure Guard (s : State) : Prop where
  founded : Founded s.tables
  guarded : ∀ c ∈ s.log, c.Guarded

/-- The role of the acting account, and that of the row it removes, are those that were read. -/
def CallActsAsChecked (t : Tables) : Call → Prop
  | .adding r ctx => roleOf t r.groupId r.actorId = some ctx.role
  | .removing r ctx target =>
    roleOf t r.groupId r.actorId = some ctx.role ∧
      roleOf t r.groupId r.targetUserId = some target.role
  | _ => True

def ActsAsChecked (s : State) : Action → Prop
  | .advance i _ => ∀ c ∈ s.calls[i]?, CallActsAsChecked s.tables c
  | _ => True

instance (t : Tables) (c : Call) : Decidable (CallActsAsChecked t c) := by
  cases c <;> unfold CallActsAsChecked <;> infer_instance

instance (s : State) (a : Action) : Decidable (ActsAsChecked s a) := by
  cases a <;> unfold ActsAsChecked <;> infer_instance

/-! ### Roles -/

section Roles

variable {t t' : Tables} {groupId : String} {userId : UserId} {r : RoleInput}

theorem roleOf_eq_some_of_mem (h : Consistent t.memberships) {m : Membership}
    (hm : m ∈ t.memberships) (hgroup : m.groupId = groupId) (huser : m.userId = userId) :
    roleOf t groupId userId = some m.role := by
  have hfind : t.findMembership groupId userId = some m := by
    refine (h.find?_eq_some_iff fun a b ha hb => ?_).mpr ⟨hm, isOf_iff.mpr ⟨hgroup, huser⟩⟩
    simp [clash, isOf_iff.mp ha, isOf_iff.mp hb]
  simp [roleOf, hfind]

theorem ownerIs_of_find {m : Membership} (h : t.findMembership groupId userId = some m)
    (hrole : m.role = .owner) : OwnerIs t groupId userId := by
  obtain ⟨hm, hgroup, huser⟩ := findMembership_eq_some h
  exact ⟨m, hm, hgroup, huser, hrole⟩

theorem roleOf_eq_owner_iff (h : Consistent t.memberships) :
    roleOf t groupId userId = some .owner ↔ OwnerIs t groupId userId := by
  constructor
  · intro hrole
    obtain ⟨m, hfind, hm⟩ := Option.map_eq_some_iff.mp hrole
    exact ownerIs_of_find hfind hm
  · rintro ⟨m, hm, hgroup, huser, hrole⟩
    rw [roleOf_eq_some_of_mem h hm hgroup huser, hrole]

theorem role_ne_owner (role : AssignableRole) : role.role ≠ .owner := by
  cases role <;> decide

/-- A row that was inserted had no predecessor. -/
theorem roleOf_eq_none_of_consistent_append {m : Membership}
    (h : Consistent (t.memberships ++ [m])) : roleOf t m.groupId m.userId = none := by
  cases hfind : t.findMembership m.groupId m.userId with
  | none => simp [roleOf, hfind]
  | some m' =>
    obtain ⟨hm', hgroup, huser⟩ := findMembership_eq_some hfind
    have hclash := (List.pairwise_append.mp h).2.2 m' hm' m (List.mem_singleton_self m)
    simp [clash, hgroup, huser] at hclash

theorem roleOf_added {env : IssuerEnv} {o : Outside} {ctx : GroupRoleContext}
    (h : addMemberTx env o t r ctx = .ok t') :
    roleOf t r.groupId r.targetUserId = none ∧
      roleOf t' r.groupId r.targetUserId = some r.role.role := by
  obtain ⟨_, -, -, hcons, rfl⟩ := addMemberTx_eq_ok h
  refine ⟨roleOf_eq_none_of_consistent_append hcons, ?_⟩
  let m : Membership := ⟨o.membershipId, r.groupId, r.targetUserId, r.role.role⟩
  have hm : m ∈ t.memberships ++ [m] := List.mem_append_right _ (List.mem_singleton_self m)
  exact roleOf_eq_some_of_mem (m := m) hcons hm rfl rfl

theorem roleOf_removed {r : TargetInput} (h : removeMemberTx t r = .ok t') :
    roleOf t' r.groupId r.targetUserId = none := by
  obtain rfl := removeMemberTx_eq_ok h
  rw [roleOf, Option.map_eq_none_iff]
  apply List.find?_eq_none.mpr
  intro m hm hof
  rw [(mem_deleteMany.mp hm).2] at hof
  cases hof

/-! ### The owner's row stays -/

theorem ownerIs_added {env : IssuerEnv} {o : Outside} {ctx : GroupRoleContext}
    (h : addMemberTx env o t r ctx = .ok t') :
    OwnerIs t' groupId userId ↔ OwnerIs t groupId userId := by
  obtain ⟨_, -, -, -, rfl⟩ := addMemberTx_eq_ok h
  constructor
  · rintro ⟨m, hm, hgroup, huser, hrole⟩
    rcases List.mem_append.mp hm with hold | hnew
    · exact ⟨m, hold, hgroup, huser, hrole⟩
    · -- the new row is no owner row
      obtain rfl := List.mem_singleton.mp hnew
      exact absurd hrole (role_ne_owner r.role)
  · rintro ⟨m, hm, hrest⟩
    exact ⟨m, List.mem_append_left _ hm, hrest⟩

theorem ownerIs_removed {r : TargetInput} (hnot : ¬ OwnerIs t r.groupId r.targetUserId)
    (h : removeMemberTx t r = .ok t') : OwnerIs t' groupId userId ↔ OwnerIs t groupId userId := by
  obtain rfl := removeMemberTx_eq_ok h
  constructor
  · rintro ⟨m, hm, hrest⟩
    exact ⟨m, (mem_deleteMany.mp hm).1, hrest⟩
  · rintro ⟨m, hm, hgroup, huser, hrole⟩
    refine ⟨m, mem_deleteMany.mpr ⟨hm, ?_⟩, hgroup, huser, hrole⟩
    apply Bool.eq_false_iff.mpr
    intro hof
    obtain ⟨hgroup', huser'⟩ := isOf_iff.mp hof
    exact hnot ⟨m, hm, hgroup', huser', hrole⟩

theorem ownerIs_set (hnot : ¬ OwnerIs t r.groupId r.targetUserId)
    (h : setMemberRoleTx t r = .ok t') : OwnerIs t' groupId userId ↔ OwnerIs t groupId userId := by
  obtain rfl := setMemberRoleTx_eq_ok h
  constructor
  · rintro ⟨m, hm, hgroup, huser, hrole⟩
    obtain ⟨m₀, hm₀, rfl⟩ := mem_mapWhere.mp hm
    split_ifs at hgroup huser hrole
    · exact absurd hrole (role_ne_owner r.role)
    · exact ⟨m₀, hm₀, hgroup, huser, hrole⟩
  · rintro ⟨m, hm, hgroup, huser, hrole⟩
    have hof : ¬ m.isOf r.groupId r.targetUserId = true := by
      intro hof
      obtain ⟨hgroup', huser'⟩ := isOf_iff.mp hof
      exact hnot ⟨m, hm, hgroup', huser', hrole⟩
    exact ⟨m, mem_mapWhere.mpr ⟨m, hm, if_neg hof⟩, hgroup, huser, hrole⟩

end Roles

/-! ### What a call has checked -/

/-- The acting account was an admin at least; if it was the owner it still is. -/
def Checked (t : Tables) (r : TargetInput) (ctx : GroupRoleContext) : Prop :=
  roleAtLeast ctx.role .admin = true ∧ (ctx.role = .owner → OwnerIs t r.groupId r.actorId)

/-- What the checks of a call leave known. Groups are neither founded nor deleted here. -/
def Sound (t : Tables) : Call → Prop
  | .findingUser r ctx | .findingMember r ctx | .adding r ctx =>
    Checked t r.toTargetInput ctx ∧ (r.role = .admin → ctx.role = .owner)
  | .findingTarget r ctx => Checked t r ctx
  | .removing r ctx target =>
    Checked t r ctx ∧ (target.role = .admin → ctx.role = .owner) ∧
      ¬ OwnerIs t r.groupId r.targetUserId
  | .findingRole r => OwnerIs t r.groupId r.actorId
  | .settingRole r _ =>
    OwnerIs t r.groupId r.actorId ∧ ¬ OwnerIs t r.groupId r.targetUserId
  | .authorizingAdd _ | .authorizingRemove _ | .authorizingRole _ | .done _ => True
  | _ => False

section Sound

variable {t t' : Tables} {c : Call} {ctx : GroupRoleContext}

/-- Only owner rows matter to what is known. -/
theorem Sound.congr (howner : ∀ g u, OwnerIs t' g u ↔ OwnerIs t g u) (h : Sound t c) :
    Sound t' c := by
  cases c <;> simp only [Sound, Checked, howner] at h ⊢ <;> exact h

theorem checked_of_require {r : TargetInput}
    (h : requireGroupRole t r.groupId r.actorId .admin = .ok ctx) : Checked t r ctx := by
  obtain ⟨m, hfind, hrole, hfloor, -⟩ := requireGroupRole_eq_ok h
  refine ⟨hrole ▸ hfloor, fun howner => ownerIs_of_find hfind (hrole ▸ howner)⟩

theorem ownerIs_of_require {r : TargetInput}
    (h : requireGroupRole t r.groupId r.actorId .owner = .ok ctx) :
    OwnerIs t r.groupId r.actorId := by
  obtain ⟨m, hfind, -, hfloor, -⟩ := requireGroupRole_eq_ok h
  apply ownerIs_of_find hfind
  cases hm : m.role with
  | owner => rfl
  | _ => simp [roleAtLeast, roleRank, hm] at hfloor

/-- A row that is found and is no owner row leaves its account without one. -/
theorem not_ownerIs_of_find (hcons : Consistent t.memberships) {m : Membership} {groupId : String}
    {userId : UserId} (h : t.findMembership groupId userId = some m) (hrole : m.role ≠ .owner) :
    ¬ OwnerIs t groupId userId := by
  intro howner
  have hof := (roleOf_eq_owner_iff hcons).mpr howner
  rw [roleOf, h] at hof
  exact hrole (Option.some.inj hof)

theorem sound_authorizeAdd (r : RoleInput) : Sound t (authorizeAdd t r) := by
  unfold authorizeAdd
  split
  · trivial
  · rename_i ctx hctx
    split_ifs with hgrant
    · trivial
    · refine ⟨checked_of_require hctx, fun hadmin => ?_⟩
      by_contra hnot
      exact hgrant ⟨hadmin, hnot⟩

theorem sound_findUser {r : RoleInput} (h : Sound t (.findingUser r ctx)) :
    Sound t (Groups.findUser t r ctx) := by
  unfold Groups.findUser
  split_ifs
  · exact h
  · trivial

theorem sound_findMember {r : RoleInput} (h : Sound t (.findingMember r ctx)) :
    Sound t (findMember t r ctx) := by
  unfold findMember
  split
  · trivial
  · exact h

theorem sound_authorizeRemove (r : TargetInput) : Sound t (authorizeRemove t r) := by
  unfold authorizeRemove
  split
  · trivial
  · rename_i ctx hctx
    exact checked_of_require hctx

theorem sound_findTarget (hcons : Consistent t.memberships) {r : TargetInput}
    (h : Checked t r ctx) : Sound t (findTarget t r ctx) := by
  unfold findTarget
  split
  · trivial
  · rename_i target hfind
    split_ifs with howner hadmin
    · trivial
    · trivial
    · refine ⟨h, fun hrole => ?_, not_ownerIs_of_find hcons hfind howner⟩
      by_contra hnot
      exact hadmin ⟨hrole, hnot⟩

theorem sound_authorizeRole (r : RoleInput) : Sound t (authorizeRole t r) := by
  unfold authorizeRole
  split
  · trivial
  · rename_i ctx hctx
    exact ownerIs_of_require hctx

theorem sound_findRole (hcons : Consistent t.memberships) {r : RoleInput}
    (h : OwnerIs t r.groupId r.actorId) : Sound t (findRole t r) := by
  unfold findRole
  split
  · trivial
  · rename_i target hfind
    split_ifs with howner
    · trivial
    · trivial
    · exact ⟨h, not_ownerIs_of_find hcons hfind howner⟩

theorem commits_done {tx : Except ServerError Tables} {rs : List StatusLists.Revocation}
    {committed : Result} {failed : ServerError → Result} :
    Sound t' (commits t tx rs committed failed).call := by
  cases tx <;> trivial

/-- What is known after a statement, of the call that made it. -/
theorem sound_advance {env : IssuerEnv} {o : Outside} (hcons : Consistent t.memberships)
    (h : Sound t c) : Sound (advance env o t c).tables (advance env o t c).call := by
  cases c with
  | authorizingAdd r => exact sound_authorizeAdd r
  | findingUser r ctx => exact sound_findUser h
  | findingMember r ctx => exact sound_findMember h
  | adding | removing | settingRole => exact commits_done
  | authorizingRemove r => exact sound_authorizeRemove r
  | findingTarget r ctx => exact sound_findTarget hcons h
  | authorizingRole r => exact sound_authorizeRole r
  | findingRole r => exact sound_findRole hcons h
  | done result => exact h
  | _ => exact h.elim

end Sound

/-! ### One statement -/

section Step

variable {env : IssuerEnv} {o : Outside} {t t' : Tables} {c : Call}
  {rs : List StatusLists.Revocation}

theorem ownerIs_turn (hturn : Turn env o t c t' rs) (h : Sound t c) (groupId : String)
    (userId : UserId) : OwnerIs t' groupId userId ↔ OwnerIs t groupId userId := by
  cases hturn with
  | reads => exact Iff.rfl
  | founds _ => exact h.elim
  | adds htx => exact ownerIs_added htx
  | removes htx => exact ownerIs_removed h.2.2 htx
  | sets htx => exact ownerIs_set h.2 htx
  | deletes _ => exact h.elim

theorem groups_turn (hturn : Turn env o t c t' rs) (h : Sound t c) : t'.groups = t.groups := by
  cases hturn with
  | reads => rfl
  | founds _ => exact h.elim
  | adds htx =>
    obtain ⟨_, -, -, -, rfl⟩ := addMemberTx_eq_ok htx
    rfl
  | removes htx => rw [removeMemberTx_eq_ok htx]
  | sets htx => rw [setMemberRoleTx_eq_ok htx]
  | deletes _ => exact h.elim

theorem consistent_turn (hturn : Turn env o t c t' rs) (hcons : Consistent t.memberships)
    (h : Sound t c) : Consistent t'.memberships := by
  cases hturn with
  | reads => exact hcons
  | founds _ => exact h.elim
  | adds htx =>
    obtain ⟨_, -, -, hm, rfl⟩ := addMemberTx_eq_ok htx
    exact hm
  | removes htx =>
    rw [removeMemberTx_eq_ok htx]
    exact hcons.deleteMany
  | sets htx =>
    rw [setMemberRoleTx_eq_ok htx]
    exact hcons.mapWhere_of_clash _ fun _ _ => rfl
  | deletes _ => exact h.elim

/-- An admin or the owner. -/
theorem admin_or_owner {role : GroupRole} (h : roleAtLeast role .admin = true) :
    role = .admin ∨ role = .owner := by
  cases role with
  | member => simp [roleAtLeast, roleRank] at h
  | admin => exact .inl rfl
  | owner => exact .inr rfl

/-- The owner may make any change. -/
theorem guarded_of_owner {change : Change} (h : change.actorRole = some .owner) :
    change.Guarded := ⟨fun _ => h, fun _ => .inr h⟩

theorem mem_changeOf {r : TargetInput} {change : Change} (h : change ∈ changeOf t t' r) :
    change = ⟨r.actorId, roleOf t r.groupId r.actorId, r.groupId, r.targetUserId,
      roleOf t r.groupId r.targetUserId, roleOf t' r.groupId r.targetUserId⟩ ∧
      roleOf t r.groupId r.targetUserId ≠ roleOf t' r.groupId r.targetUserId := by
  simp only [changeOf] at h
  split_ifs at h with hsame
  · cases h
  · exact ⟨List.mem_singleton.mp h, hsame⟩

/-- A change by a call that acts as checked is guarded. -/
theorem guarded_turn (hturn : Turn env o t c t' rs) (hcons : Consistent t.memberships)
    (h : Sound t c) (hok : CallActsAsChecked t c) :
    ∀ change ∈ changesOf t t' c, change.Guarded := by
  intro change hchange
  cases hturn with
  | reads =>
    simp only [changesOf] at hchange
    split at hchange
    · exact absurd rfl (mem_changeOf hchange).2
    · cases hchange
  | founds _ => exact h.elim
  | deletes _ => exact h.elim
  | @adds r ctx _ htx =>
    obtain ⟨rfl, -⟩ := mem_changeOf hchange
    obtain ⟨⟨hfloor, -⟩, hgrant⟩ := h
    obtain ⟨hbefore, hafter⟩ := roleOf_added htx
    refine ⟨fun hadmin => ?_, fun _ => ?_⟩
    · rcases hadmin with hadmin | hadmin
      · cases hbefore.symm.trans hadmin
      · have hrole : r.role.role = .admin := Option.some.inj (hafter.symm.trans hadmin)
        have : r.role = .admin := by cases hr : r.role <;> simp_all [AssignableRole.role]
        exact hok.trans (congrArg some (hgrant this))
    · rcases admin_or_owner hfloor with hrole | hrole
      · exact .inl (hok.trans (congrArg some hrole))
      · exact .inr (hok.trans (congrArg some hrole))
  | @removes r ctx target _ htx =>
    obtain ⟨rfl, -⟩ := mem_changeOf hchange
    obtain ⟨⟨hfloor, -⟩, hadmins, -⟩ := h
    obtain ⟨hactor, htarget⟩ := hok
    refine ⟨fun hadmin => ?_, fun _ => ?_⟩
    · rcases hadmin with hadmin | hadmin
      · have hrole : target.role = .admin := Option.some.inj (htarget.symm.trans hadmin)
        exact hactor.trans (congrArg some (hadmins hrole))
      · cases (roleOf_removed htx).symm.trans hadmin
    · rcases admin_or_owner hfloor with hrole | hrole
      · exact .inl (hactor.trans (congrArg some hrole))
      · exact .inr (hactor.trans (congrArg some hrole))
  | @sets r target _ htx =>
    obtain ⟨rfl, -⟩ := mem_changeOf hchange
    exact guarded_of_owner ((roleOf_eq_owner_iff hcons).mpr h.1)

end Step

structure Inv (s : State) : Prop where
  guard : Guard s
  sound : ∀ c ∈ s.calls, Sound s.tables c

theorem sound_start (env : TextEnv) (t : Tables) (request : Request)
    (h : ∀ userId input, request ≠ .createGroup userId input) (h' : ∀ r, request ≠ .deleteGroup r) :
    Sound t (request.start env) := by
  cases request with
  | createGroup userId input => exact absurd rfl (h userId input)
  | deleteGroup r => exact absurd rfl (h' r)
  | _ =>
    simp only [Request.start]
    split_ifs <;> trivial

theorem Inv.start {s : State} {env : IssuerEnv} (hs : Inv s) {request : Request}
    (h : Sound s.tables (request.start env.text)) : Inv (s.start env request) := by
  exact ⟨⟨hs.guard.founded, hs.guard.guarded⟩, forall_mem_concat hs.sound h⟩

theorem inv_step (env : IssuerEnv) (s : State) (a : Action) (s' : State) (hs : Inv s)
    (hok : ActsAsChecked s a) (h : step env s a = some s') : Inv s' := by
  cases a with
  | addMember | removeMember | setMemberRole =>
    cases h
    exact hs.start (sound_start _ _ _ nofun nofun)
  | advance i o =>
    simp only [step, State.advance] at h
    split at h
    · cases h
    · cases h
    · rename_i c hnot hcall
      cases h
      have hsound : Sound s.tables c := hs.sound c (List.mem_of_getElem? hcall)
      have hturn : Turn env o s.tables c _ _ := turn_of_advance
      have howner := ownerIs_turn hturn hsound
      obtain ⟨hcons, hfounder, honly⟩ := hs.guard.founded
      refine ⟨⟨⟨consistent_turn hturn hcons hsound, ?_, ?_⟩, ?_⟩, ?_⟩
      · intro g hg
        exact (howner _ _).mpr (hfounder g (groups_turn hturn hsound ▸ hg))
      · intro g hg userId hwho
        exact honly g (groups_turn hturn hsound ▸ hg) userId ((howner _ _).mp hwho)
      · intro change hchange
        rcases List.mem_append.mp hchange with hold | hnew
        · exact hs.guard.guarded change hold
        · exact guarded_turn hturn hcons hsound (hok c hcall) change hnew
      · exact forall_mem_set (fun c₁ hc₁ => (hs.sound c₁ hc₁).congr howner)
          (sound_advance hcons hsound)

/-! ### Runs -/

/-- Nothing has happened yet, and every group is as it was founded. -/
structure State.Fresh (s : State) : Prop where
  calls : s.calls = []
  log : s.log = []
  founded : Founded s.tables

theorem State.Fresh.inv {s : State} (h : s.Fresh) : Inv s := by
  refine ⟨⟨h.founded, ?_⟩, ?_⟩
  · intro c hc
    simp [h.log] at hc
  · intro c hc
    simp [h.calls] at hc

/-- **The coup guard holds** in every state of a run whose calls act in the roles they have
checked. -/
theorem coupGuard_of_run (env : IssuerEnv) {s₀ s : State} {as : List Action} (hs : s₀.Fresh)
    (hok : Along (step env) ActsAsChecked s₀ as) (hrun : run (step env) s₀ as = some s) : Guard s :=
  (run_invariant Inv (inv_step env) hs.inv hok hrun).guard

/-! ### A member who is promoted while being removed -/

/-- A group with its owner, an admin and a member. -/
def sampleState : State where
  tables := {
    users := ["cowner000", "cadmin000", "cuser0000"]
    groups := [⟨"cgroup000", "acme", "cowner000"⟩]
    memberships := [⟨"m1", "cgroup000", "cowner000", .owner⟩,
      ⟨"m2", "cgroup000", "cadmin000", .admin⟩, ⟨"m3", "cgroup000", "cuser0000", .member⟩] }

theorem sampleState_fresh : sampleState.Fresh := by
  refine ⟨rfl, rfl, by decide +kernel, ?_, ?_⟩
  · intro g hg
    obtain rfl := List.mem_singleton.mp hg
    exact ⟨_, List.mem_cons_self, rfl, rfl, rfl⟩
  · rintro g hg userId ⟨m, hm, -, rfl, hrole⟩
    obtain rfl := List.mem_singleton.mp hg
    simp only [sampleState, List.mem_cons, List.not_mem_nil, or_false] at hm
    rcases hm with rfl | rfl | rfl
    · rfl
    · cases hrole
    · cases hrole

def removal : TargetInput := ⟨"cadmin000", "cgroup000", "cuser0000"⟩

def promotion : RoleInput := ⟨⟨"cowner000", "cgroup000", "cuser0000"⟩, .admin⟩

/-- The admin removes the member while the owner is promoting the member. -/
def removedDuringPromotion : List Action :=
  [.setMemberRole promotion, .advance 0 {}, .removeMember removal, .advance 1 {}, .advance 0 {},
    .advance 1 {}, .advance 1 {}, .advance 0 {}]

/-- The promotion finds no row to update. -/
theorem removal_guarded : ∃ s,
    run (step sampleIssuerEnv) sampleState removedDuringPromotion = some s ∧
      (s.calls = [.done (.thrown (.db .recordNotFound)), .done .ok] ∧
        s.log = [⟨"cadmin000", some .admin, "cgroup000", "cuser0000", some .member, none⟩]) ∧
      Guard s := by
  exact exists_run_and (by decide +kernel) fun s hrun =>
    coupGuard_of_run sampleIssuerEnv sampleState_fresh (by decide +kernel) hrun

/-- The admin has read the target's role when the owner promotes the target. -/
def promotedDuringRemoval : List Action :=
  [.removeMember removal, .advance 0 {}, .advance 0 {},
    .setMemberRole promotion, .advance 1 {}, .advance 1 {}, .advance 1 {}, .advance 0 {}]

theorem promotedDuringRemoval_unguarded : ∃ s,
    run (step sampleIssuerEnv) sampleState promotedDuringRemoval = some s ∧
      s.calls = [.done .ok, .done .ok] ∧
      ⟨"cadmin000", some .admin, "cgroup000", "cuser0000", some .admin, none⟩ ∈ s.log ∧
        ¬ Guard s := by
  refine exists_run_and (by decide +kernel) fun s hrun => ⟨?logged, fun hguard => ?_⟩
  · exact of_run (by decide +kernel) hrun
  · -- an admin row is deleted by somebody who is an admin
    cases (hguard.guarded _ ?logged).admins (.inl rfl)

end Minister.CoupGuard

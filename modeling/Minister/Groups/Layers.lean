import Minister.Groups.Alone
import Minister.Oidc.BadgeJwts
import Minister.StatusList.Turns

/-!
# The two layers of revocation

A group badge is checked twice. When it is disclosed, `loadApprovedBadgeJwts` looks for a membership
of the account in the group and leaves the badge out if there is none. And what was disclosed
carries the place of a status entry, which is revoked with the membership that the badge was issued
for. The first layer knows a membership by group and account, the second by its id.

They part when somebody who was removed is added again. The old badge, whose membership is gone and
revoked, passes the first layer on the strength of the new membership, and is disclosed with an
entry that is revoked already.

Actions and disclosures run one after the other here. The statements of `allocateStatusEntry` and
`revokeStatusAnchor` within one of them run in any order, from the first to the last.
-/

namespace Minister.RevocationLayers

open Codec Relational Transition Vc Groups Oidc
open StatusLists (AllocatedStatus)

/-! ### Runs -/

/-- The tables, the status lists, and every id that a group or a membership was ever given. -/
structure State where
  tables : Tables
  status : StatusLists.State := {}
  ids : List String := []

inductive Action
  | request (r : Request) (o : Outside) (schedule : List StatusLists.Action)
  | disclose (input : DisclosureInput) (schedule : List StatusLists.Action)

/-- Calls on the status lists from start to end, with nothing beside them. -/
def runStatus (status : StatusLists.State) (starts schedule : List StatusLists.Action) :
    Option StatusLists.State :=
  if schedule.all fun a => a.started?.isNone then
    run StatusLists.step { status with calls := [] } (starts ++ schedule)
  else none

def isRevoked : StatusLists.Call → Bool
  | .revoked _ _ => true
  | _ => false

def isReturned : StatusLists.Call → Bool
  | .allocated _ | .failed _ => true
  | _ => false

namespace State

variable (env : DisclosureEnv) (s : State)

/-- A group action; the ids it takes for new rows were never used. -/
def request (r : Request) (o : Outside) (schedule : List StatusLists.Action) : Option State :=
  if o.membershipId ∈ s.ids ∨ o.groupId ∈ s.ids then none
  else
    let out := complete env.issuing o s.tables r
    (runStatus s.status (out.revocations.map .revoke) schedule).bind fun status =>
      if status.calls.all isRevoked then
        some ⟨out.tables, { status with calls := [] }, s.ids ++ [o.membershipId, o.groupId]⟩
      else none

/-- The anchor of a row that gets as far as `allocateStatusEntry`. -/
def allocating? (input : DisclosureInput) (row : StoredBadge) : Option String :=
  (rowNullifier env input row).bind fun _ =>
    (liveRole input s.tables row).bind fun _ => row.statusAnchor.filter (· ≠ "")

/-- The rows for which an entry is allocated, with their anchors. -/
def allocations (input : DisclosureInput) : List (StoredBadge × String) :=
  (disclosableRows env input s.tables).filterMap fun row =>
    (s.allocating? env input row).map fun anchor => (row, anchor)

/-- What `allocateStatusEntry` has returned for the rows. -/
def allocated (input : DisclosureInput) (calls : List StatusLists.Call) (row : StoredBadge) :
    Option AllocatedStatus :=
  match ((s.allocations env input).zip calls).find? fun p => p.1.1 = row with
  | some (_, .allocated alloc) => some alloc
  | _ => none

/-- The status lists after a disclosure, with the calls that were made. -/
def discloses (input : DisclosureInput) (schedule : List StatusLists.Action) :
    Option StatusLists.State :=
  (runStatus s.status ((s.allocations env input).map fun p => .allocate p.2 input.clientId)
    schedule).bind fun status => if status.calls.all isReturned then some status else none

end State

def step (env : DisclosureEnv) (s : State) : Action → Option State
  | .request r o schedule => s.request env r o schedule
  | .disclose input schedule =>
    (s.discloses env input schedule).map fun status =>
      { s with status := { status with calls := [] } }

/-- The credentials of a disclosure, with the rows they are minted from. -/
def Discloses (env : DisclosureEnv) (s : State) (input : DisclosureInput)
    (status : StatusLists.State) (row : StoredBadge) (c : Credential) : Prop :=
  row ∈ disclosableRows env input s.tables ∧
    discloseRow env input s.tables (s.allocated env input status.calls) row = some c

/-! ### The property -/

/-- The membership that the anchor names is there, and the status entry that the credential points
to is not revoked. -/
structure Agrees (env : DisclosureEnv) (s : State) (status : StatusLists.State) (row : StoredBadge)
    (c : Credential) : Prop where
  membership : ∃ m ∈ s.tables.memberships, row.statusAnchor = some (groupMembershipAnchor m.id)
  entry : ∃ e ∈ status.entries,
    c.payload.keys? ["vc", "credentialStatus"] =
        some (credentialStatusFor env ⟨e.listId, e.bitIndex⟩).toJson ∧
      row.statusAnchor = some e.statusAnchor ∧ e.revokedAt = none

/-- The account holds a badge of the group. -/
def HoldsBadge (t : Tables) (groupId : String) (userId : UserId) : Prop :=
  ∃ b ∈ t.badges, b.type = groupMembershipBadgeType ∧ b.userId = userId ∧
    attributeGroupId b.toBadgeRow = some groupId

/-- Nobody becomes a member of a group they hold a badge of. -/
def JoinsOnce (env : DisclosureEnv) (s : State) : Action → Prop
  | .request (.addMember r) o _ =>
    s.tables.findMembership r.groupId r.targetUserId = none →
      (complete env.issuing o s.tables (.addMember r)).tables.findMembership r.groupId
        r.targetUserId ≠ none →
        ¬ HoldsBadge s.tables r.groupId r.targetUserId
  | _ => True

instance (t : Tables) (groupId : String) (userId : UserId) :
    Decidable (HoldsBadge t groupId userId) :=
  inferInstanceAs (Decidable (∃ b ∈ t.badges, _ ∧ _ ∧ _))

instance (env : DisclosureEnv) (s : State) (a : Action) : Decidable (JoinsOnce env s a) := by
  unfold JoinsOnce
  split <;> infer_instance

/-! ### Memberships, badges and tombstones -/

/-- A badge was issued for one membership: no other membership of its account in its group is
there. -/
def IssuedFor (t : Tables) (b : StoredBadge) (groupId membershipId : String) : Prop :=
  b.statusAnchor = some (groupMembershipAnchor membershipId) ∧
    ∀ m ∈ t.memberships, m.groupId = groupId → m.userId = b.userId → m.id = membershipId

/-- The tables, given the ids that were used and the anchors that have a tombstone. -/
structure Coherent (ids : List String) (tombstoned : String → Prop) (t : Tables) : Prop where
  consistent : Consistent t.memberships
  issued : ∀ b ∈ t.badges, b.type = groupMembershipBadgeType →
    ∀ groupId, attributeGroupId b.toBadgeRow = some groupId →
      groupId ∈ ids ∧ ∃ membershipId, IssuedFor t b groupId membershipId
  known : ∀ g ∈ t.groups, g.id ∈ ids
  used : ∀ m ∈ t.memberships, m.id ∈ ids
  live : ∀ m ∈ t.memberships, ¬ tombstoned (groupMembershipAnchor m.id)
  revoked : ∀ id, tombstoned (groupMembershipAnchor id) → id ∈ ids

section Coherent

variable {env : IssuerEnv} {o : Outside} {ids : List String} {tombstoned : String → Prop}
  {t t' : Tables}

theorem groupMembershipAnchor_inj {a b : String}
    (h : groupMembershipAnchor a = groupMembershipAnchor b) : a = b :=
  String.append_right_inj "gm:" |>.mp h

/-- What a group badge looks like when it is issued. -/
theorem issueBadge_group {userId : UserId} {slug groupId membershipId : String} {role : GroupRole}
    {minting : Minting} {badges badges' : List StoredBadge}
    (h : issueBadge env (groupMembershipBadge userId slug role groupId membershipId) minting
      badges = .ok badges') :
    ∃ b : StoredBadge, badges' = badges ++ [b] ∧ b.userId = userId ∧
      attributeGroupId b.toBadgeRow = some groupId ∧
        b.statusAnchor = some (groupMembershipAnchor membershipId) := by
  obtain ⟨info, claims, hinfo, -, -, rfl⟩ := issueBadge_eq_ok_iff.mp h
  obtain rfl := Option.some.inj ((findBadgeType_groupMembership env.text).symm.trans hinfo)
  exact ⟨_, rfl, rfl, rfl, rfl⟩

variable (hs : Coherent ids tombstoned t)

include hs

/-- A membership and its badge are inserted. The badges that are there are of other accounts or
other groups. -/
theorem Coherent.insert {m : Membership} {badges : List StoredBadge} {b : StoredBadge}
    {more : List String} (hm : m.id ∉ ids) (hcons : Consistent (t.memberships ++ [m]))
    (hbadges : badges = t.badges ++ [b]) (huser : b.userId = m.userId)
    (hgroup : attributeGroupId b.toBadgeRow = some m.groupId)
    (hanchor : b.statusAnchor = some (groupMembershipAnchor m.id))
    (hmore : m.id ∈ more ∧ (m.groupId ∈ ids ∨ m.groupId ∈ more))
    (hnot : ¬ HoldsBadge t m.groupId m.userId) (ht' : t'.memberships = t.memberships ++ [m])
    (htb : t'.badges = badges) (htg : ∀ g ∈ t'.groups, g.id ∈ ids ++ more) :
    Coherent (ids ++ more) tombstoned t' := by
  refine ⟨ht' ▸ hcons, ?_, htg, ?_, ?_, ?_⟩
  · intro b' hb' htype groupId hg
    rw [htb, hbadges] at hb'
    rcases List.mem_append.mp hb' with hold | hnew
    · obtain ⟨hused, membershipId, ha, honly⟩ := hs.issued b' hold htype groupId hg
      refine ⟨List.mem_append_left _ hused, membershipId, ha, ?_⟩
      intro m' hm' hgroup' huser'
      rw [ht'] at hm'
      rcases List.mem_append.mp hm' with hmold | hmnew
      · exact honly m' hmold hgroup' huser'
      · -- the new row is not of this badge's account in this badge's group
        obtain rfl := List.mem_singleton.mp hmnew
        exact absurd ⟨b', hold, htype, huser'.symm, hgroup' ▸ hg⟩ hnot
    · obtain rfl := List.mem_singleton.mp hnew
      obtain rfl := Option.some.inj (hgroup.symm.trans hg)
      refine ⟨List.mem_append.mpr hmore.2, m.id, hanchor, ?_⟩
      intro m' hm' hgroup' huser'
      rw [ht'] at hm'
      have hmem : m ∈ t.memberships ++ [m] := List.mem_append_right _ (List.mem_singleton_self m)
      rw [hcons.eq_of_clash hm' hmem (by simp [clash, hgroup', huser', huser])]
  · rw [ht']
    exact forall_mem_concat (fun m' hold => List.mem_append_left _ (hs.used m' hold))
      (List.mem_append_right _ hmore.1)
  · rw [ht']
    exact forall_mem_concat hs.live fun htomb => hm (hs.revoked _ htomb)
  · intro id htomb
    exact List.mem_append_left _ (hs.revoked id htomb)

/-- Memberships are deleted and their anchors revoked. -/
theorem Coherent.delete {p : Membership → Bool} {rs : List StatusLists.Revocation}
    (hrs : ∀ r ∈ rs, ∃ m ∈ t.memberships, p m = true ∧ r.anchor = groupMembershipAnchor m.id)
    (ht' : t'.memberships = deleteMany p t.memberships) (htb : t'.badges = t.badges)
    (htg : ∀ g ∈ t'.groups, g ∈ t.groups) :
    Coherent ids (fun a => tombstoned a ∨ ∃ r ∈ rs, r.anchor = a) t' := by
  have hkept {m : Membership} (hm : m ∈ t'.memberships) : m ∈ t.memberships ∧ p m = false :=
    mem_deleteMany.mp (ht' ▸ hm)
  refine ⟨ht' ▸ hs.consistent.deleteMany, ?_, fun g hg => hs.known g (htg g hg), ?_, ?_, ?_⟩
  · intro b hb htype groupId hg
    obtain ⟨hused, membershipId, ha, honly⟩ := hs.issued b (htb ▸ hb) htype groupId hg
    exact ⟨hused, membershipId, ha, fun m hm => honly m (hkept hm).1⟩
  · exact fun m hm => hs.used m (hkept hm).1
  · rintro m hm (hold | ⟨r, hr, hanchor⟩)
    · exact hs.live m (hkept hm).1 hold
    · -- only rows that are deleted are revoked
      obtain ⟨m', hm', hp, hanchor'⟩ := hrs r hr
      have hid : m.id = m'.id := groupMembershipAnchor_inj (hanchor.symm.trans hanchor')
      obtain rfl := eq_of_membershipId hs.consistent (hkept hm).1 hm' hid
      rw [(hkept hm).2] at hp
      cases hp
  · rintro id (hold | ⟨r, hr, hanchor⟩)
    · exact hs.revoked id hold
    · obtain ⟨m, hm, -, hanchor'⟩ := hrs r hr
      rw [groupMembershipAnchor_inj (hanchor.symm.trans hanchor')]
      exact hs.used m hm

/-- Rows keep their ids, groups and accounts. -/
theorem Coherent.rewrite (p : Membership → Bool) (f : Membership → Membership)
    (hf : ∀ m, (f m).id = m.id ∧ (f m).groupId = m.groupId ∧ (f m).userId = m.userId) :
    Coherent ids tombstoned { t with memberships := mapWhere p f t.memberships } := by
  have hfrom {m : Membership} (hm : m ∈ mapWhere p f t.memberships) : ∃ m₀ ∈ t.memberships,
      m.id = m₀.id ∧ m.groupId = m₀.groupId ∧ m.userId = m₀.userId := by
    obtain ⟨m₀, hm₀, rfl⟩ := mem_mapWhere.mp hm
    refine ⟨m₀, hm₀, ?_⟩
    split_ifs
    · exact hf m₀
    · exact ⟨rfl, rfl, rfl⟩
  refine ⟨?_, ?_, hs.known, ?_, ?_, hs.revoked⟩
  · refine hs.consistent.mapWhere_of_clash p fun a b => ?_
    simp only [clash, (hf a).1, (hf a).2.1, (hf a).2.2]
  · intro b hb htype groupId hg
    obtain ⟨hused, membershipId, ha, honly⟩ := hs.issued b hb htype groupId hg
    refine ⟨hused, membershipId, ha, fun m hm hgroup huser => ?_⟩
    obtain ⟨m₀, hm₀, hid, hgroup₀, huser₀⟩ := hfrom hm
    rw [hid]
    exact honly m₀ hm₀ (hgroup₀.symm.trans hgroup) (huser₀.symm.trans huser)
  · intro m hm
    obtain ⟨m₀, hm₀, hid, -⟩ := hfrom hm
    exact hid ▸ hs.used m₀ hm₀
  · intro m hm
    obtain ⟨m₀, hm₀, hid, -⟩ := hfrom hm
    exact hid ▸ hs.live m₀ hm₀

/-- More ids and fewer tombstones do no harm. -/
theorem Coherent.mono {fewer : String → Prop} (more : List String)
    (h : ∀ a, fewer a → tombstoned a) : Coherent (ids ++ more) fewer t where
  consistent := hs.consistent
  issued b hb htype groupId hg := by
    obtain ⟨hused, hfor⟩ := hs.issued b hb htype groupId hg
    exact ⟨List.mem_append_left _ hused, hfor⟩
  known g hg := List.mem_append_left _ (hs.known g hg)
  used m hm := List.mem_append_left _ (hs.used m hm)
  live m hm ht := hs.live m hm (h _ ht)
  revoked id ht := List.mem_append_left _ (hs.revoked id (h _ ht))

theorem Coherent.anti {fewer : String → Prop} (h : ∀ a, fewer a → tombstoned a) :
    Coherent ids fewer t := by
  simpa using hs.mono [] h

/-- **One action**: what its transaction does keeps the tables coherent with the tombstones it asks
for. -/
theorem Coherent.turn {request : Request} {c : Call} {rs : List StatusLists.Revocation}
    (hcurrent : Current request t c) (hturn : Turn env o t c t' rs) (hm : o.membershipId ∉ ids)
    (hg : o.groupId ∉ ids)
    (hjoin : ∀ r, request = .addMember r → t.findMembership r.groupId r.targetUserId = none →
      t'.findMembership r.groupId r.targetUserId ≠ none →
        ¬ HoldsBadge t r.groupId r.targetUserId) :
    Coherent (ids ++ [o.membershipId, o.groupId])
      (fun a => tombstoned a ∨ ∃ r ∈ rs, r.anchor = a) t' := by
  have hnone (a : String)
      (h : tombstoned a ∨ ∃ r ∈ ([] : List StatusLists.Revocation), r.anchor = a) :
      tombstoned a := by
    rcases h with h | ⟨r, hr, -⟩
    · exact h
    · cases hr
  cases hturn with
  | reads => exact hs.mono _ hnone
  | @founds f _ h =>
    obtain ⟨badges, hbadges, -, hcons, rfl⟩ := createGroupTx_eq_ok h
    obtain ⟨b, hb, huser, hgroup, hanchor⟩ := issueBadge_group hbadges
    refine Coherent.anti (hs.insert hm hcons hb huser hgroup hanchor ⟨by simp, .inr (by simp)⟩ ?_
      rfl rfl ?_) hnone
    · -- nobody holds a badge of a group that is new
      rintro ⟨b', hb', htype, -, hg'⟩
      exact hg (hs.issued b' hb' htype _ hg').1
    · exact forall_mem_concat (fun g hold => List.mem_append_left _ (hs.known g hold)) (by simp)
  | @adds r ctx _ h =>
    obtain ⟨badges, hbadges, hthere, hcons, rfl⟩ := addMemberTx_eq_ok h
    obtain ⟨b, hb, huser, hgroup, hanchor⟩ := issueBadge_group hbadges
    obtain ⟨g, hfind⟩ := Option.isSome_iff_exists.mp hthere
    have hid : g.id = r.groupId := of_decide_eq_true (List.find?_some hfind :)
    have hknown : r.groupId ∈ ids := hid ▸ hs.known g (List.mem_of_find?_eq_some hfind)
    have hnew : t.findMembership r.groupId r.targetUserId = none := by
      refine List.find?_eq_none.mpr fun m hmem hof => ?_
      have hclash := (List.pairwise_append.mp hcons).2.2 m hmem _ (List.mem_singleton_self _)
      simp [clash, isOf_iff.mp hof] at hclash
    have hjoined := hjoin r hcurrent hnew (by simp [Tables.findMembership, Membership.isOf])
    refine Coherent.anti ?_ hnone
    exact hs.insert hm hcons hb huser hgroup hanchor ⟨by simp, .inl hknown⟩ hjoined rfl rfl
      fun g hg => List.mem_append_left _ (hs.known g hg)
  | @removes r ctx target _ h =>
    have ht' := removeMemberTx_eq_ok h
    refine (hs.delete (p := Membership.isOf r.groupId r.targetUserId) ?_ (by rw [ht']) (by rw [ht'])
      fun g hg => by rwa [ht'] at hg).mono _ fun _ ha => ha
    intro r' hr'
    obtain rfl := List.mem_singleton.mp hr'
    obtain ⟨hmem, hof⟩ := findMembership_eq_some hcurrent
    exact ⟨target, hmem, isOf_iff.mpr hof, rfl⟩
  | @sets r target _ h =>
    obtain rfl := setMemberRoleTx_eq_ok h
    have hset := hs.rewrite (Membership.isOf r.groupId r.targetUserId)
      (fun m => { m with role := r.role.role }) fun _ => ⟨rfl, rfl, rfl⟩
    exact hset.mono _ hnone
  | @deletes r group ids' _ h =>
    have ht' := deleteGroupTx_eq_ok h
    refine (hs.delete (p := fun m => m.groupId = r.groupId) ?_ (by rw [ht']) (by rw [ht'])
      fun g hg => ?_).mono _ fun _ ha => ha
    · intro r' hr'
      obtain ⟨id, hid, rfl⟩ := List.mem_map.mp hr'
      rw [show ids' = memberIds t r.groupId from hcurrent] at hid
      obtain ⟨m, hm', rfl⟩ := List.mem_map.mp hid
      obtain ⟨hmem, hp⟩ := mem_findMany.mp hm'
      exact ⟨m, hmem, hp, rfl⟩
    · rw [ht'] at hg
      exact (mem_deleteMany.mp hg).1

end Coherent

/-! ### The status lists -/

section Status

variable {status status' : StatusLists.State} {starts schedule : List StatusLists.Action}

theorem backed_reset (h : StatusLists.Backed status) :
    StatusLists.Backed { status with calls := [] } :=
  ⟨h.entries, h.anchors, nofun⟩

theorem runStatus_eq_some (h : runStatus status starts schedule = some status') :
    (∀ a ∈ schedule, a.started? = none) ∧
      run StatusLists.step { status with calls := [] } (starts ++ schedule) = some status' := by
  unfold runStatus at h
  split_ifs at h with hall
  exact ⟨fun a ha => Option.isNone_iff_eq_none.mp (List.all_eq_true.mp hall a ha), h⟩

theorem backed_of_runStatus (hs : StatusLists.Backed status)
    (h : runStatus status starts schedule = some status') : StatusLists.Backed status' :=
  StatusLists.backed_of_run (backed_reset hs) (runStatus_eq_some h).2

/-- No anchor gets a tombstone but those that are being revoked. -/
theorem tombstoned_of_runStatus {P : String → Prop} (hs : ∀ a, status.Tombstoned a → P a)
    (hstarts : ∀ a ∈ starts, ∀ c ∈ a.started?, c.Within P)
    (h : runStatus status starts schedule = some status') :
    ∀ a, status'.Tombstoned a → P a := by
  obtain ⟨hnone, hrun⟩ := runStatus_eq_some h
  have hinit : StatusLists.Within P { status with calls := [] } := ⟨hs, nofun⟩
  refine (run_invariant (StatusLists.Within P) StatusLists.within_step hinit ?_ hrun).tombstones
  refine along_of_forall_mem fun a ha _ => ?_
  rcases List.mem_append.mp ha with hstart | hsched
  · exact hstarts a hstart
  · intro c hc
    rw [hnone a hsched] at hc
    cases hc

theorem run_allocates {clientId : String} (anchors : List String) (s : StatusLists.State) :
    run StatusLists.step s (anchors.map fun anchor => .allocate anchor clientId) =
      some { s with
        calls := s.calls ++ anchors.map fun anchor => .readingAnchor anchor clientId } := by
  induction anchors generalizing s with
  | nil => simp
  | cons anchor anchors ih =>
    rw [List.map_cons, run, StatusLists.step, Option.bind_some, ih]
    simp

/-- What an allocation returns is the entry of its anchor. -/
theorem places_of_runStatus {anchors : List String} {clientId : String}
    (h : runStatus status (anchors.map fun anchor => .allocate anchor clientId) schedule =
      some status') {j : Nat} {anchor : String} {alloc : AllocatedStatus}
    (hj : anchors[j]? = some anchor) (hcall : status'.calls[j]? = some (.allocated alloc)) :
    status'.Places anchor clientId alloc := by
  obtain ⟨-, hrun⟩ := runStatus_eq_some h
  obtain ⟨s₁, hstarts, hsched⟩ := run_append_eq_some_iff.mp hrun
  rw [run_allocates] at hstarts
  cases hstarts
  have hinit : StatusLists.State.AllocatesAt { status with
      calls := [] ++ anchors.map fun anchor => .readingAnchor anchor clientId } j anchor clientId :=
    ⟨.readingAnchor anchor clientId, by simp [hj], rfl, rfl⟩
  obtain ⟨c, hc, halloc⟩ := run_invariant_always
    (fun s => s.AllocatesAt j anchor clientId) StatusLists.allocatesAt_step hinit hsched
  obtain rfl := Option.some.inj (hc.symm.trans hcall)
  exact halloc

end Status

/-! ### The invariant -/

structure Inv (s : State) : Prop where
  backed : StatusLists.Backed s.status
  coherent : Coherent s.ids s.status.Tombstoned s.tables

theorem inv_request {env : DisclosureEnv} {s s' : State} {r : Request} {o : Outside}
    {schedule : List StatusLists.Action} (hs : Inv s)
    (hok : JoinsOnce env s (.request r o schedule))
    (h : s.request env r o schedule = some s') : Inv s' := by
  unfold State.request at h
  split_ifs at h with hfresh
  obtain ⟨hm, hg⟩ := not_or.mp hfresh
  obtain ⟨status, hstatus, h⟩ := Option.bind_eq_some_iff.mp h
  split_ifs at h
  cases h
  refine ⟨backed_reset (backed_of_runStatus hs.backed hstatus), ?_⟩
  obtain ⟨c, hcurrent, hturn⟩ := turn_of_complete env.issuing o s.tables r
  have hjoin : ∀ r', r = .addMember r' →
      s.tables.findMembership r'.groupId r'.targetUserId = none →
        (complete env.issuing o s.tables r).tables.findMembership r'.groupId
          r'.targetUserId ≠ none →
          ¬ HoldsBadge s.tables r'.groupId r'.targetUserId := by
    rintro r' rfl
    exact hok
  have htomb := tombstoned_of_runStatus
    (P := fun a => s.status.Tombstoned a ∨
      ∃ r' ∈ (complete env.issuing o s.tables r).revocations, r'.anchor = a)
    (fun a ha => .inl ha) ?_ hstatus
  · exact (hs.coherent.turn hcurrent hturn hm hg hjoin).anti htomb
  intro a ha c hc
  obtain ⟨r', hr', rfl⟩ := List.mem_map.mp ha
  cases hc
  exact .inr ⟨r', hr', rfl⟩

theorem allocate_within {P : String → Prop} {clientId : String}
    {pairs : List (StoredBadge × String)} :
    ∀ a ∈ pairs.map fun p => StatusLists.Action.allocate p.2 clientId,
      ∀ c ∈ a.started?, c.Within P := by
  intro a ha c hc
  obtain ⟨p, -, rfl⟩ := List.mem_map.mp ha
  cases hc
  trivial

theorem discloses_eq_some {env : DisclosureEnv} {s : State} {input : DisclosureInput}
    {schedule : List StatusLists.Action} {status : StatusLists.State}
    (h : s.discloses env input schedule = some status) :
    runStatus s.status ((s.allocations env input).map fun p => .allocate p.2 input.clientId)
      schedule = some status := by
  obtain ⟨status', hstatus, h⟩ := Option.bind_eq_some_iff.mp h
  split_ifs at h
  exact Option.some.inj h ▸ hstatus

theorem inv_step (env : DisclosureEnv) (s : State) (a : Action) (s' : State) (hs : Inv s)
    (hok : JoinsOnce env s a) (h : step env s a = some s') : Inv s' := by
  cases a with
  | request r o schedule => exact inv_request hs hok h
  | disclose input schedule =>
    obtain ⟨status, hstatus, rfl⟩ := Option.map_eq_some_iff.mp h
    have hrun := discloses_eq_some hstatus
    refine ⟨backed_reset (backed_of_runStatus hs.backed hrun), ?_⟩
    have htomb := tombstoned_of_runStatus (fun a ha => ha) allocate_within hrun
    exact hs.coherent.anti htomb

/-! ### Disclosures -/

section Disclosure

variable {env : DisclosureEnv} {s : State} {input : DisclosureInput} {status : StatusLists.State}
  {row : StoredBadge} {c : Credential}

/-- The entry that was returned for a row. -/
theorem allocated_eq_some {calls : List StatusLists.Call} {alloc : AllocatedStatus}
    (h : s.allocated env input calls row = some alloc) :
    ∃ (j : Nat) (anchor : String), (s.allocations env input)[j]? = some (row, anchor) ∧
      row.statusAnchor = some anchor ∧ calls[j]? = some (StatusLists.Call.allocated alloc) := by
  unfold State.allocated at h
  split at h
  · rename_i pair alloc' hfind
    obtain rfl := Option.some.inj h
    obtain ⟨j, hj⟩ := List.mem_iff_getElem?.mp (List.mem_of_find?_eq_some hfind)
    obtain ⟨hpair, hcall⟩ := List.getElem?_zip_eq_some.mp hj
    obtain rfl : pair.1 = row := of_decide_eq_true (List.find?_some hfind :)
    refine ⟨j, pair.2, hpair, ?_, hcall⟩
    obtain ⟨row', -, hrow'⟩ := List.mem_filterMap.mp (List.mem_of_getElem? hpair)
    obtain ⟨anchor, hanchor, rfl⟩ := Option.map_eq_some_iff.mp hrow'
    obtain ⟨_, -, hanchor⟩ := Option.bind_eq_some_iff.mp hanchor
    obtain ⟨_, -, hanchor⟩ := Option.bind_eq_some_iff.mp hanchor
    exact (Option.filter_eq_some_iff.mp hanchor).1
  · cases h

/-- A group badge that is disclosed in a state where the invariant holds. -/
theorem agrees_of_discloses (hs : Inv s) {schedule : List StatusLists.Action}
    (hd : s.discloses env input schedule = some status) (h : Discloses env s input status row c)
    (htype : row.type = groupMembershipBadgeType) : Agrees env s status row c := by
  obtain ⟨hrow, hc⟩ := h
  obtain ⟨nullifier, role, st, -, hrole, hstatus, hmint⟩ := discloseRow_eq_some hc
  obtain ⟨hmem, hof⟩ := mem_findMany.mp hrow
  have huser : row.userId = input.userId := (of_decide_eq_true hof).1
  -- the first layer: there is a membership, and it is the one the badge was issued for
  obtain ⟨groupId, m, hgroup, hfind, -⟩ := membership_of_liveRole hrole htype
  obtain ⟨hm, hmgroup, hmuser⟩ := findMembership_eq_some hfind
  obtain ⟨-, membershipId, hanchor, honly⟩ := hs.coherent.issued row hmem htype groupId hgroup
  obtain rfl := honly m hm hmgroup (hmuser.trans huser.symm)
  refine ⟨⟨m, hm, hanchor⟩, ?_⟩
  -- the second: the entry that was returned is that of the anchor
  have hne : groupMembershipAnchor m.id ≠ "" := by
    intro hempty
    have := congrArg String.toList hempty
    simp [groupMembershipAnchor] at this
  unfold rowStatus at hstatus
  rw [hanchor] at hstatus
  split at hstatus
  · rename_i hnone
    cases hnone
  · rename_i hempty
    exact absurd (Option.some.inj hempty) hne
  obtain ⟨alloc, halloc, rfl⟩ := Option.map_eq_some_iff.mp hstatus
  obtain ⟨j, anchor, hj, hrowanchor, hcall⟩ := allocated_eq_some halloc
  obtain rfl := Option.some.inj (hanchor.symm.trans hrowanchor)
  have hrun := discloses_eq_some hd
  have hplace : status.Places (groupMembershipAnchor m.id) input.clientId alloc := by
    have hanchors : ((s.allocations env input).map Prod.snd)[j]? =
        some (groupMembershipAnchor m.id) := by
      rw [List.getElem?_map, hj]
      rfl
    have hrun' : runStatus s.status (((s.allocations env input).map Prod.snd).map
        fun anchor => .allocate anchor input.clientId) schedule = some status := by
      rw [List.map_map]
      exact hrun
    exact places_of_runStatus hrun' hanchors hcall
  obtain ⟨e, he, heanchor, -, helist, hebit⟩ := hplace
  refine ⟨e, he, ?_, hanchor.trans (congrArg some heanchor.symm), ?_⟩
  · rw [keys?_status_of_reMintWith hmint, helist, hebit]
    rfl
  · by_contra hrevoked
    have htomb := (backed_of_runStatus hs.backed hrun).entries e he hrevoked
    rw [heanchor] at htomb
    exact hs.coherent.live m hm
      (tombstoned_of_runStatus (fun a ha => ha) allocate_within hrun _ htomb)

end Disclosure

/-! ### Every run -/

/-- There are no groups yet, and no badges of groups. -/
structure State.Fresh (s : State) : Prop where
  groups : s.tables.groups = []
  memberships : s.tables.memberships = []
  badges : ∀ b ∈ s.tables.badges, b.type ≠ groupMembershipBadgeType
  backed : StatusLists.Backed s.status
  tombstones : ∀ id, ¬ s.status.Tombstoned (groupMembershipAnchor id)

theorem State.Fresh.inv {s : State} (h : s.Fresh) : Inv s := by
  refine ⟨h.backed, ?_, ?_, ?_, ?_, ?_, ?_⟩
  · rw [h.memberships]
    exact Consistent.nil
  · exact fun b hb htype => absurd htype (h.badges b hb)
  · simp [h.groups]
  · simp [h.memberships]
  · simp [h.memberships]
  · exact fun id ht => absurd ht (h.tombstones id)

/-- **The two layers agree** on every group badge that is disclosed, if nobody joins a group they
hold a badge of. -/
theorem agrees_of_run (env : DisclosureEnv) {s₀ s : State} {as : List Action} (hs : s₀.Fresh)
    (hok : Along (step env) (JoinsOnce env) s₀ as) (hrun : run (step env) s₀ as = some s)
    {input : DisclosureInput} {schedule : List StatusLists.Action} {status : StatusLists.State}
    (hd : s.discloses env input schedule = some status) :
    ∀ c ∈ loadApprovedBadgeJwts env input s.tables (s.allocated env input status.calls),
      (∃ row, Discloses env s input status row c) ∧
        ∀ row, Discloses env s input status row c → row.type = groupMembershipBadgeType →
          Agrees env s status row c := by
  intro c hc
  refine ⟨mem_loadApprovedBadgeJwts.mp hc, fun row hrow htype => ?_⟩
  exact agrees_of_discloses (run_invariant Inv (inv_step env) hs.inv hok hrun) hd hrow htype

/-! ### A member who leaves and comes back -/

/-- The credential of the sample's badge, whose id stands for it. -/
def sampleStored : Json :=
  .obj (issuedPayload sampleIssuerEnv.issuer groupMembershipBadgeType
    (buildUserDid sampleIssuerEnv.domain "cuser0000") "b2"
    [("group", .str "acme"), ("role", .str "member"), ("groupId", .str "cgroup000")] 0)

def sampleDisclosureEnv : DisclosureEnv where
  issuing := { sampleIssuerEnv with
    signCompactJwt _ payload :=
      match payload.keys? ["jti"] with
      | some (.str jti) => jti
      | _ => "" }
  vc := ⟨fun jwt _ => if jwt = "b2" then some ⟨some (.str "vc+jwt"), some sampleStored⟩ else none⟩
  oidcIssuerUrl := "https://ministry.id"
  dedupHandle _ := none
  derivePairwiseJti badgeId clientId := badgeId ++ clientId
  disclose _ _ _ := none

def sampleState : State := { tables := { users := ["cowner000", "cuser0000"] } }

theorem sampleState_fresh : sampleState.Fresh :=
  ⟨rfl, rfl, nofun, ⟨nofun, nofun, nofun⟩, by simp [sampleState, StatusLists.State.Tombstoned]⟩

def founding : Action :=
  .request (.createGroup "cowner000" ⟨"acme", "Acme", none⟩)
    ⟨0, some ⟨0, 3⟩, some 4, "cgroup000", "m1", ⟨"b1", 0, 0⟩⟩ []

def joining (membershipId badgeId : String) : Action :=
  .request (.addMember ⟨⟨"cowner000", "cgroup000", "cuser0000"⟩, .member⟩)
    { groupId := "n" ++ membershipId, membershipId, minting := ⟨badgeId, 0, 0⟩ } []

def leaving : Action :=
  .request (.removeMember ⟨"cowner000", "cgroup000", "cuser0000"⟩)
    { nowMs := 5, groupId := "n", membershipId := "n" } [.upsert 0, .scan 0, .finish 0]

/-- The badge of the first membership, for one client. -/
def sampleInput : DisclosureInput := ⟨"cuser0000", "client", "sub", ["b2"], 0⟩

/-- The statements of one allocation. -/
def sampleSchedule (after : List StatusLists.Action) : List StatusLists.Action :=
  [.readAnchor 0, .findExisting 0, .findShard 0, .createShard 0 "L0", .attempt 0 5 "e1" .anchor] ++
    after

/-- Whether a run ends in a state where the sample's badge is disclosed, with the place that was
allocated for it, and `p` holds. -/
def isDisclosed (as : List Action) (schedule : List StatusLists.Action)
    (p : State → StatusLists.State → StoredBadge → Bool) : Bool :=
  (run (step sampleDisclosureEnv) sampleState as).any fun s =>
    (s.discloses sampleDisclosureEnv sampleInput schedule).any fun status =>
      (disclosableRows sampleDisclosureEnv sampleInput s.tables).any fun row =>
        (discloseRow sampleDisclosureEnv sampleInput s.tables
          (s.allocated sampleDisclosureEnv sampleInput status.calls) row).isSome &&
            (decide (row.type = groupMembershipBadgeType) && p s status row)

theorem exists_of_isDisclosed {as : List Action} {schedule : List StatusLists.Action}
    {p : State → StatusLists.State → StoredBadge → Bool} (h : isDisclosed as schedule p = true) :
    ∃ s status row c, run (step sampleDisclosureEnv) sampleState as = some s ∧
      s.discloses sampleDisclosureEnv sampleInput schedule = some status ∧
      Discloses sampleDisclosureEnv s sampleInput status row c ∧
      row.type = groupMembershipBadgeType ∧ p s status row = true := by
  obtain ⟨s, hrun, h⟩ := (Option.any_eq_true _ _).mp h
  obtain ⟨status, hstatus, h⟩ := (Option.any_eq_true _ _).mp h
  obtain ⟨row, hrow, h⟩ := List.any_eq_true.mp h
  simp only [Bool.and_eq_true, decide_eq_true_eq] at h
  obtain ⟨hsome, htype, hp⟩ := h
  obtain ⟨c, hc⟩ := Option.isSome_iff_exists.mp hsome
  exact ⟨s, status, row, c, hrun, hstatus, ⟨hrow, hc⟩, htype, hp⟩

/-- A member joins and has the badge disclosed. -/
theorem joining_agrees : ∃ s status row c,
    run (step sampleDisclosureEnv) sampleState [founding, joining "m2" "b2"] = some s ∧
      s.discloses sampleDisclosureEnv sampleInput (sampleSchedule [.recheck 0]) = some status ∧
      Discloses sampleDisclosureEnv s sampleInput status row c ∧
      row.type = groupMembershipBadgeType ∧ Agrees sampleDisclosureEnv s status row c := by
  obtain ⟨s, status, row, c, hrun, hd, hc, htype, -⟩ := exists_of_isDisclosed
    (by decide +kernel : isDisclosed [founding, joining "m2" "b2"] (sampleSchedule [.recheck 0])
      (fun _ _ _ => true) = true)
  have hagrees := agrees_of_run sampleDisclosureEnv sampleState_fresh (by decide +kernel) hrun hd c
    (mem_loadApprovedBadgeJwts.mpr ⟨row, hc⟩)
  exact ⟨s, status, row, c, hrun, hd, hc, htype, hagrees.2 row hc htype⟩

/-- A member leaves and is added again. The badge of the first membership is disclosed to them, with
an entry that is revoked. -/
theorem rejoin_disagrees : ∃ s status row c,
    run (step sampleDisclosureEnv) sampleState
        [founding, joining "m2" "b2", leaving, joining "m3" "b3"] = some s ∧
      s.discloses sampleDisclosureEnv sampleInput (sampleSchedule [.force 0 9]) = some status ∧
      Discloses sampleDisclosureEnv s sampleInput status row c ∧
      row.type = groupMembershipBadgeType ∧
      (∀ m ∈ s.tables.memberships, row.statusAnchor ≠ some (groupMembershipAnchor m.id)) ∧
      (∀ e ∈ status.entries, row.statusAnchor = some e.statusAnchor → e.revokedAt ≠ none) ∧
      ¬ Agrees sampleDisclosureEnv s status row c := by
  obtain ⟨s, status, row, c, hrun, hd, hc, htype, hp⟩ := exists_of_isDisclosed
    (by decide +kernel : isDisclosed [founding, joining "m2" "b2", leaving, joining "m3" "b3"]
      (sampleSchedule [.force 0 9]) (fun s status row => decide
        ((∀ m ∈ s.tables.memberships, row.statusAnchor ≠ some (groupMembershipAnchor m.id)) ∧
          ∀ e ∈ status.entries, row.statusAnchor = some e.statusAnchor →
            e.revokedAt ≠ none)) = true)
  obtain ⟨hmember, hentry⟩ := of_decide_eq_true hp
  refine ⟨s, status, row, c, hrun, hd, hc, htype, hmember, hentry, ?_⟩
  rintro ⟨⟨m, hm, hanchor⟩, -⟩
  exact hmember m hm hanchor

end Minister.RevocationLayers

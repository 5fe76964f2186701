import Minister.Groups.Tombstones
import Minister.Transition.Pool

/-!
# The founding quota

A founding counts the groups that its account owns and refuses if they are `maxOwnedGroups`. The
group is created in a later transaction, which does not count again, so every founding that has
passed its count may add a group. The quota holds as long as each count leaves room for the
foundings of the account that are past theirs.
-/

namespace Minister.GroupTombstones

open Relational Transition Groups Vc

def owned (t : Tables) (userId : UserId) : Nat :=
  (t.groups.filter fun g => g.ownerUserId = userId).length

/-- The call is about to count the groups of the account. -/
def isCounting (userId : UserId) : Call → Bool
  | .checkingQuota f => f.userId = userId
  | _ => false

/-- The call has counted the groups of the account and is about to create one. -/
def isFounding (userId : UserId) : Call → Bool
  | .founding f => f.userId = userId
  | _ => false

def underway (s : State) (userId : UserId) : Nat := s.calls.countP (isFounding userId)

/-- When a founding of the account counts its groups, it refuses, or there is room for one more
beside those of the foundings that have counted before. -/
def HasRoom (config : GroupConfigValues) (userId : UserId) (s : State) : Action → Prop
  | .advance i _ => ∀ c ∈ s.calls[i]?, isCounting userId c = true →
    config.maxOwnedGroups ≤ owned s.tables userId ∨
      owned s.tables userId + underway s userId < config.maxOwnedGroups
  | .start _ => True

/-- The configuration, whenever it can be read, is this one. -/
def Action.Under (config : GroupConfigValues) : Action → Prop
  | .advance _ o => ∀ c ∈ o.config, c = config
  | .start _ => True

instance (config : GroupConfigValues) (userId : UserId) (s : State) :
    (a : Action) → Decidable (HasRoom config userId s a)
  | .start _ => isTrue trivial
  | .advance i _ =>
    inferInstanceAs (Decidable (∀ c ∈ s.calls[i]?, isCounting userId c = true → _ ∨ _ < _))

instance (config : GroupConfigValues) : (a : Action) → Decidable (a.Under config)
  | .start _ => isTrue trivial
  | .advance _ o => inferInstanceAs (Decidable (∀ c ∈ o.config, c = config))

section Quota

variable {env : IssuerEnv} {o : Outside} {t t' : Tables} {c : Call} {userId : UserId}
  {config : GroupConfigValues}

/-- Only the count leads to the creation. -/
theorem isFounding_advance (h : isFounding userId (Groups.advance env o t c).call = true) :
    isCounting userId c = true ∧
      ∃ config, o.config = some config ∧ owned t userId < config.maxOwnedGroups := by
  have hcommits {tx : Except ServerError Tables} {revocations : List StatusLists.Revocation}
      {committed : Result} {failed : ServerError → Result} :
      isFounding userId (commits t tx revocations committed failed).call = false := by
    cases tx <;> rfl
  cases c with
  | founding | deleting | adding | removing | settingRole =>
    simp only [advance, hcommits, Bool.false_eq_true] at h
  | checkingQuota f =>
    simp only [advance, reads, checkQuota] at h
    split at h
    · cases h
    rename_i config hconfig
    split_ifs at h with hmax
    · cases h
    have huser : f.userId = userId := by
      split at h
      · cases h
      · split_ifs at h
        · cases h
        · exact of_decide_eq_true h
    subst huser
    exact ⟨decide_eq_true rfl, config, hconfig, Nat.lt_of_not_le hmax⟩
  | _ =>
    -- the other reads refuse, or lead to another stage
    simp only [advance, reads, checkSlug, checkTombstone, authorizeDelete, authorizeAdd,
      Groups.findUser, findMember, authorizeRemove, findTarget, authorizeRole, findRole] at h
    (repeat' split at h) <;> cases h

/-- A statement adds a group of the account only as the end of a founding of it. -/
theorem owned_le_of_turn {revocations : List StatusLists.Revocation}
    (h : Turn env o t c t' revocations) :
    owned t' userId ≤ owned t userId + if isFounding userId c then 1 else 0 := by
  cases h with
  | reads => exact Nat.le_add_right _ _
  | @founds f _ h =>
    obtain ⟨badges, -, -, -, rfl⟩ := createGroupTx_eq_ok h
    by_cases huser : f.userId = userId <;> simp [owned, isFounding, List.filter_append, huser]
  | adds h =>
    obtain ⟨badges, -, -, -, rfl⟩ := addMemberTx_eq_ok h
    exact Nat.le_add_right _ _
  | removes h =>
    obtain rfl := removeMemberTx_eq_ok h
    exact Nat.le_add_right _ _
  | sets h =>
    obtain rfl := setMemberRoleTx_eq_ok h
    exact Nat.le_add_right _ _
  | deletes h =>
    obtain rfl := deleteGroupTx_eq_ok h
    exact Nat.le_add_right_of_le (List.filter_sublist.filter _).length_le

/-- The groups of the account and its foundings past the count are within the quota. -/
theorem quota_step (s : State) (a : Action) (s' : State)
    (hs : owned s.tables userId + underway s userId ≤ config.maxOwnedGroups)
    (hok : HasRoom config userId s a ∧ a.Under config) (h : step env s a = some s') :
    owned s'.tables userId + underway s' userId ≤ config.maxOwnedGroups := by
  cases a with
  | start request =>
    cases h
    -- no call starts past the count
    have hstart : isFounding userId (request.start env.text) = false := by
      cases request <;> simp only [Request.start] <;> (repeat' split) <;> rfl
    simpa [underway, List.countP_append, hstart] using hs
  | advance i o =>
    obtain ⟨c, hcall, rfl⟩ := advance_eq_some h
    have hturn : Turn env o s.tables c _ _ := turn_of_advance
    have howned : owned _ userId ≤ _ := owned_le_of_turn hturn
    have hcount := countP_set (b := (Groups.advance env o s.tables c).call) hcall
      (isFounding userId)
    simp only [underway] at hs ⊢
    by_cases hpast : isFounding userId (Groups.advance env o s.tables c).call = true
    · obtain ⟨hcounting, config', hconfig, hlt⟩ := isFounding_advance hpast
      obtain rfl := hok.2 config' hconfig
      have hroom := (hok.1 c hcall hcounting).resolve_left (Nat.not_le_of_lt hlt)
      rw [if_pos hpast] at hcount
      simp only [underway] at hroom
      omega
    · rw [if_neg hpast] at hcount
      omega

end Quota

/-- **The founding quota holds** as long as every founding of the account counts with room for
those that have counted before. -/
theorem owned_le_of_run (env : IssuerEnv) {config : GroupConfigValues} {userId : UserId}
    {s₀ s : State} {as : List Action} (hcalls : s₀.calls = [])
    (howned : owned s₀.tables userId ≤ config.maxOwnedGroups)
    (hconfig : ∀ a ∈ as, a.Under config) (hok : Along (step env) (HasRoom config userId) s₀ as)
    (hrun : run (step env) s₀ as = some s) : owned s.tables userId ≤ config.maxOwnedGroups := by
  have hinv := run_invariant
    (fun s => owned s.tables userId + underway s userId ≤ config.maxOwnedGroups) quota_step
    (by simpa [underway, hcalls] using howned) (hok.and_mem hconfig) hrun
  exact Nat.le_trans (Nat.le_add_right _ _) hinv

/-! ### Two foundings at once -/

def sampleConfig : GroupConfigValues := ⟨2, 2⟩

def founding (slug : String) : Request := .createGroup "cowner000" ⟨slug, "A group", none⟩

/-- The count, with an account that is strong enough. -/
def counting : Outside := { config := some sampleConfig, bucket := some 2 }

def creation (n : String) : Outside :=
  { groupId := "cgroup" ++ n, membershipId := "m" ++ n, minting := ⟨"b" ++ n, 0, 0⟩ }

/-- The owner of one group founds another, and is refused a third. -/
def oneByOne : List Action :=
  [.start (founding "beta"), .advance 0 {}, .advance 0 {}, .advance 0 counting,
    .advance 0 (creation "2"), .start (founding "gamma"), .advance 1 {}, .advance 1 {},
    .advance 1 counting]

theorem oneByOne_owned : ∃ s, run (step sampleIssuerEnv) sampleState oneByOne = some s ∧
    s.calls = [.done (.created "cgroup2" "beta"), .done (.refused (quotaMessage 2))] ∧
    owned s.tables "cowner000" ≤ sampleConfig.maxOwnedGroups := by
  exact exists_run_and (by decide +kernel) fun s hrun => owned_le_of_run sampleIssuerEnv rfl
    (by decide +kernel) (by decide +kernel) (by decide +kernel) hrun

/-- Both foundings count before either creates its group. -/
def twoAtOnce : List Action :=
  [.start (founding "beta"), .start (founding "gamma"), .advance 0 {}, .advance 0 {},
    .advance 1 {}, .advance 1 {}, .advance 0 counting, .advance 1 counting,
    .advance 0 (creation "2"), .advance 1 (creation "3")]

theorem twoAtOnce_over : ∃ s, run (step sampleIssuerEnv) sampleState twoAtOnce = some s ∧
    s.calls = [.done (.created "cgroup2" "beta"), .done (.created "cgroup3" "gamma")] ∧
    owned sampleState.tables "cowner000" ≤ sampleConfig.maxOwnedGroups ∧
    sampleConfig.maxOwnedGroups < owned s.tables "cowner000" :=
  exists_run (by decide +kernel)

end Minister.GroupTombstones

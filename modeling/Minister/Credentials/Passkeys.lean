import Minister.Credentials.Lifecycle
import Minister.Transition.Pool

/-!
# Adding and removing passkeys

An insertion runs in a transaction: it takes the advisory lock of its user, counts the
passkeys of the user, creates the row with the status that the count asks for, and commits,
which publishes the row and gives the lock back. A removal holds no lock: it looks the
passkey up, counts, and deletes, in three statements. The steps of any number of insertions
and removals interleave, and time passes between them.

The count of an insertion is still true when its row is published, as long as it was not
zero: nobody else can add a passkey for the user, but a removal can take passkeys away. Two
removals that count two passkeys each delete both of them, and the next passkey of the user
is taken for the first one. Where every deletion leaves the user another passkey, this
cannot happen.
-/

namespace Minister.Credentials

open Relational Recovery Transition

/-- A stored passkey. -/
structure Passkey extends Authenticator, Lifecycle where
  addedAt : Timestamp
  deriving DecidableEq, Repr

instance : Constrained Passkey where
  clash a b := a.credentialID == b.credentialID

def Passkey.gateRow (p : Passkey) : GatePasskeyRow :=
  { p with }

/-- `findMany({ where: { userId } })`. -/
def passkeysOf (userId : UserId) (passkeys : List Passkey) : List Passkey :=
  findMany (fun p => p.userId = userId) passkeys

/-- The gate for the passkeys of a user. -/
def evaluateForUser (passkeys : List Passkey) (userId : UserId)
    (actingCredentialId : Option String) (now : Timestamp) : Option QuarantineRefusal :=
  evaluatePrivilegedGate ((passkeysOf userId passkeys).map Passkey.gateRow) actingCredentialId now

/-! ### The calls -/

/-- A call of `insertPasskeyWithLifecycle`, by the statement it has reached. -/
inductive InsertCall
  | locking (data : Authenticator)
  | counting (data : Authenticator)
  | creating (data : Authenticator) (existing : Nat)
  | committing (existing : Nat) (created : Passkey)
  /-- The transaction has committed and the call returns. -/
  | inserted (existing : Nat) (created : Passkey)
  /-- The transaction was rolled back. -/
  | aborted
  deriving DecidableEq, Repr

/-- The user whose advisory lock the call holds. -/
def InsertCall.holds : InsertCall → Option UserId
  | .counting data => some data.userId
  | .creating data _ => some data.userId
  | .committing _ created => some created.userId
  | _ => none

/-- A call of `removePasskey`, by the statement it has reached. -/
inductive RemoveCall
  | finding (userId : UserId) (credentialID : String)
  | counting (userId : UserId) (credentialID : String)
  | deleting (userId : UserId) (credentialID : String)
  | removed
  | refused (e : ActionError)
  | failed (e : DbError)
  deriving DecidableEq, Repr

structure State where
  now : Timestamp := 0
  passkeys : List Passkey := []
  insertions : List InsertCall := []
  removals : List RemoveCall := []
  deriving DecidableEq, Repr

/-- The state in which an insertion stands somewhere else. -/
def State.setInsertion (s : State) (i : Nat) (c : InsertCall) : State :=
  { s with insertions := s.insertions.set i c }

/-- The row that an insertion creates. -/
def newPasskey (data : Authenticator) (existing : Nat) (now : Timestamp) : Passkey :=
  { data, lifecycleForNewPasskey existing now with addedAt := now }

/-- The next statement of an insertion; a statement that fails rolls it back. -/
def State.insertStep (s : State) : InsertCall → Option (List Passkey × InsertCall)
  | .locking data =>
    -- the lock is taken, or the call waits
    if data.userId ∈ s.insertions.filterMap InsertCall.holds then none
    else some (s.passkeys, .counting data)
  | .counting data =>
    some (s.passkeys, .creating data (passkeysOf data.userId s.passkeys).length)
  | .creating data existing =>
    match create (newPasskey data existing s.now) s.passkeys with
    -- nobody else sees the row before the commit
    | .ok _ => some (s.passkeys, .committing existing (newPasskey data existing s.now))
    | .error _ => some (s.passkeys, .aborted)
  | .committing existing created =>
    match create created s.passkeys with
    | .ok passkeys => some (passkeys, .inserted existing created)
    | .error _ => some (s.passkeys, .aborted)
  | .inserted _ _ => none
  | .aborted => none

/-- The checks of `removePasskey` before its first statement. -/
def removePasskey (session : Option Principal) (credentialID : String) : RemoveCall :=
  match (do
    let session ← requirePrincipal session
    rejectRecovered session
    requireAal session.toSession 2
    return session : Except ActionError Principal) with
  | .ok session => .finding session.userId credentialID
  | .error e => .refused e

/-- The next statement of a removal. -/
def State.removeStep (s : State) : RemoveCall → Option (List Passkey × RemoveCall)
  | .finding userId credentialID =>
    if (s.passkeys.find? fun p => p.userId = userId ∧ p.credentialID = credentialID).isSome then
      some (s.passkeys, .counting userId credentialID)
    else some (s.passkeys, .refused (.error "Passkey not found."))
  | .counting userId credentialID =>
    if (passkeysOf userId s.passkeys).length ≤ 1 then
      some (s.passkeys, .refused (.error
        ("You can't remove your last passkey — it's your only phishing-resistant factor. " ++
          "Add another passkey first.")))
    else some (s.passkeys, .deleting userId credentialID)
  | .deleting userId credentialID =>
    if s.passkeys.any fun p => p.userId = userId ∧ p.credentialID = credentialID then
      some (deleteMany (fun p => p.userId = userId ∧ p.credentialID = credentialID) s.passkeys,
        .removed)
    else some (s.passkeys, .failed .recordNotFound)
  | .removed => none
  | .refused _ => none
  | .failed _ => none

inductive Action
  /-- Time passes. -/
  | tick (ms : Nat)
  /-- `insertPasskeyWithLifecycle` is called. -/
  | insert (data : Authenticator)
  /-- An insertion runs its next statement. -/
  | advanceInsert (i : Nat)
  /-- The transaction of an insertion is lost. -/
  | abort (i : Nat)
  /-- `removePasskey` is called. -/
  | remove (session : Option Principal) (credentialID : String)
  /-- A removal runs its next statement. -/
  | advanceRemove (k : Nat)
  deriving DecidableEq, Repr

def step (s : State) : Action → Option State
  | .tick ms => some { s with now := s.now + ms }
  | .insert data => some { s with insertions := s.insertions ++ [.locking data] }
  | .advanceInsert i => do
    let c ← s.insertions[i]?
    let (passkeys, c') ← s.insertStep c
    return { s with passkeys := passkeys, insertions := s.insertions.set i c' }
  | .abort i => do
    let c ← s.insertions[i]?
    match c with
    | .inserted _ _ => none
    | _ => return s.setInsertion i .aborted
  | .remove session credentialID =>
    some { s with removals := s.removals ++ [removePasskey session credentialID] }
  | .advanceRemove k => do
    let c ← s.removals[k]?
    let (passkeys, c') ← s.removeStep c
    return { s with passkeys := passkeys, removals := s.removals.set k c' }

/-! ### What a step can do -/

/-- What a step can do to the passkeys and the insertions. -/
inductive Effect (s : State) (a : Action) : State → Prop
  /-- Time, and what a removal reads. -/
  | frame {s' : State} (hpasskeys : s'.passkeys = s.passkeys)
      (hinsertions : s'.insertions = s.insertions) : Effect s a s'
  | insert (data : Authenticator) :
      Effect s a { s with insertions := s.insertions ++ [.locking data] }
  | acquire (i : Nat) (data : Authenticator) (hcall : s.insertions[i]? = some (.locking data))
      (hfree : data.userId ∉ s.insertions.filterMap InsertCall.holds) :
      Effect s a (s.setInsertion i (.counting data))
  | count (i : Nat) (data : Authenticator) (hcall : s.insertions[i]? = some (.counting data)) :
      Effect s a (s.setInsertion i
        (.creating data (passkeysOf data.userId s.passkeys).length))
  | create (i : Nat) (data : Authenticator) (existing : Nat)
      (hcall : s.insertions[i]? = some (.creating data existing)) :
      Effect s a (s.setInsertion i (.committing existing (newPasskey data existing s.now)))
  | commit (i existing : Nat) (created : Passkey)
      (hcall : s.insertions[i]? = some (.committing existing created))
      (hcons : Consistent (s.passkeys ++ [created])) :
      Effect s a { s with
        passkeys := s.passkeys ++ [created]
        insertions := s.insertions.set i (.inserted existing created) }
  | abort (i : Nat) (c : InsertCall) (hcall : s.insertions[i]? = some c)
      (hopen : ∀ existing created, c ≠ .inserted existing created) :
      Effect s a (s.setInsertion i .aborted)
  | delete (k : Nat) (userId : UserId) (credentialID : String)
      (haction : a = .advanceRemove k)
      (hcall : s.removals[k]? = some (.deleting userId credentialID)) {s' : State}
      (hpasskeys : s'.passkeys =
        deleteMany (fun p => p.userId = userId ∧ p.credentialID = credentialID) s.passkeys)
      (hinsertions : s'.insertions = s.insertions) : Effect s a s'

section Effects

variable {s s' : State} {a : Action}

theorem effect_of_insertStep {i : Nat} {c c' : InsertCall} {passkeys : List Passkey}
    (hcall : s.insertions[i]? = some c) (h : s.insertStep c = some (passkeys, c')) :
    Effect s a { s with passkeys := passkeys, insertions := s.insertions.set i c' } := by
  cases c with
  | locking data =>
    simp only [State.insertStep] at h
    split_ifs at h with hheld
    cases h
    exact .acquire i data hcall hheld
  | counting data =>
    cases h
    exact .count i data hcall
  | creating data existing =>
    simp only [State.insertStep] at h
    split at h <;> cases h
    · exact .create i data existing hcall
    · exact .abort i _ hcall nofun
  | committing existing created =>
    simp only [State.insertStep] at h
    split at h <;> cases h
    · rename_i hcreate
      obtain ⟨hcons, rfl⟩ := create_eq_ok_iff.mp hcreate
      exact .commit i existing created hcall hcons
    · exact .abort i _ hcall nofun
  | inserted existing created => cases h
  | aborted => cases h

theorem effect_of_removeStep {k : Nat} {c c' : RemoveCall} {passkeys : List Passkey}
    (hcall : s.removals[k]? = some c) (h : s.removeStep c = some (passkeys, c')) :
    Effect s (.advanceRemove k)
      { s with passkeys := passkeys, removals := s.removals.set k c' } := by
  cases c with
  | finding | counting =>
    simp only [State.removeStep] at h
    split_ifs at h <;> cases h <;> exact .frame rfl rfl
  | deleting userId credentialID =>
    simp only [State.removeStep] at h
    split_ifs at h <;> cases h
    · exact .delete k userId credentialID rfl hcall rfl rfl
    · exact .frame rfl rfl
  | removed => cases h
  | refused e => cases h
  | failed e => cases h

theorem effect_of_step (h : step s a = some s') : Effect s a s' := by
  cases a with
  | tick | remove =>
    cases h
    exact .frame rfl rfl
  | insert data =>
    cases h
    exact .insert data
  | advanceInsert i =>
    simp only [step, Option.bind_eq_bind, Option.bind_eq_some_iff] at h
    obtain ⟨c, hcall, ⟨passkeys, c'⟩, hnext, hs'⟩ := h
    cases hs'
    exact effect_of_insertStep hcall hnext
  | abort i =>
    simp only [step, Option.bind_eq_bind, Option.bind_eq_some_iff] at h
    obtain ⟨c, hcall, hs'⟩ := h
    split at hs' <;> cases hs'
    rename_i hopen
    exact .abort i c hcall hopen
  | advanceRemove k =>
    simp only [step, Option.bind_eq_bind, Option.bind_eq_some_iff] at h
    obtain ⟨c, hcall, ⟨passkeys, c'⟩, hnext, hs'⟩ := h
    cases hs'
    exact effect_of_removeStep hcall hnext

end Effects

/-! ### What the lock guarantees -/

/-- The user has no passkey. -/
def NoneOf (passkeys : List Passkey) (userId : UserId) : Prop :=
  ∀ p ∈ passkeys, p.userId ≠ userId

/-- What a call has counted and stamped. A count of zero is still true. -/
def InsertOk (passkeys : List Passkey) : InsertCall → Prop
  | .creating data existing => existing = 0 → NoneOf passkeys data.userId
  | .committing existing created =>
    (existing = 0 → NoneOf passkeys created.userId) ∧
      created.toLifecycle = lifecycleForNewPasskey existing created.addedAt
  | .inserted existing created =>
    created.toLifecycle = lifecycleForNewPasskey existing created.addedAt
  | _ => True

/-- No two insertions hold the lock of one user, and what they counted is so. -/
structure Serialized (s : State) : Prop where
  passkeys : Consistent s.passkeys
  locks : (s.insertions.filterMap InsertCall.holds).Nodup
  calls : ∀ c ∈ s.insertions, InsertOk s.passkeys c

/-- No call is in progress. -/
structure State.Initial (s : State) : Prop where
  passkeys : Consistent s.passkeys
  insertions : s.insertions = []
  removals : s.removals = []

theorem State.Initial.serialized {s : State} (h : s.Initial) : Serialized s := by
  refine ⟨h.passkeys, ?_, ?_⟩ <;> rw [h.insertions]
  · exact List.nodup_nil
  · exact nofun

section Serialization

variable {s s' : State} {a : Action} {c : InsertCall} {passkeys passkeys' : List Passkey}

theorem length_passkeysOf_eq_zero_iff {userId : UserId} :
    (passkeysOf userId passkeys).length = 0 ↔ NoneOf passkeys userId := by
  simp [passkeysOf, findMany, NoneOf]

/-- Fewer passkeys do not make a count of zero false. -/
theorem InsertOk.mono (h : InsertOk passkeys c) (hsub : ∀ p ∈ passkeys', p ∈ passkeys) :
    InsertOk passkeys' c := by
  cases c with
  | creating data existing => exact fun h0 p hp => h h0 p (hsub p hp)
  | committing existing created =>
    exact ⟨fun h0 p hp => h.1 h0 p (hsub p hp), h.2⟩
  | inserted existing created => exact h
  | _ => trivial

/-- A passkey of one user does not make the count for another false. -/
theorem InsertOk.append {created : Passkey} (h : InsertOk passkeys c)
    (hc : ∀ userId, c.holds = some userId → created.userId ≠ userId) :
    InsertOk (passkeys ++ [created]) c := by
  have hnone {userId : UserId} (hnone : NoneOf passkeys userId) (hne : created.userId ≠ userId) :
      NoneOf (passkeys ++ [created]) userId := by
    intro p hp
    rcases List.mem_append.mp hp with hold | hnew
    · exact hnone p hold
    · rwa [List.mem_singleton.mp hnew]
  cases c with
  | creating data existing => exact fun h0 => hnone (h h0) (hc _ rfl)
  | committing existing row => exact ⟨fun h0 => hnone (h.1 h0) (hc _ rfl), h.2⟩
  | inserted existing row => exact h
  | _ => trivial

/-- A call that takes no lock it did not hold. -/
theorem Serialized.set {i : Nat} {c' : InsertCall} (hinv : Serialized s)
    (hcall : s.insertions[i]? = some c) (hholds : c'.holds = c.holds ∨ c'.holds = none)
    (hok : InsertOk s.passkeys c') :
    Serialized (s.setInsertion i c') :=
  ⟨hinv.passkeys, hinv.locks.sublist (filterMap_set_sublist hcall hholds),
    forall_mem_set hinv.calls hok⟩

/-- The time and the removals play no part. -/
theorem Serialized.congr (hinv : Serialized s) (hpasskeys : s'.passkeys = s.passkeys)
    (hinsertions : s'.insertions = s.insertions) : Serialized s' := by
  constructor <;> simp only [hpasskeys, hinsertions]
  exacts [hinv.passkeys, hinv.locks, hinv.calls]

theorem Serialized.step (h : Effect s a s') (hinv : Serialized s) : Serialized s' := by
  cases h with
  | frame hpasskeys hinsertions =>
    exact hinv.congr hpasskeys hinsertions
  | insert data =>
    refine ⟨hinv.passkeys, ?_, ?_⟩
    · rw [List.filterMap_append, List.filterMap_cons_none rfl, List.filterMap_nil, List.append_nil]
      exact hinv.locks
    · exact forall_mem_concat hinv.calls trivial
  | acquire i data hcall hfree =>
    refine ⟨hinv.passkeys, ?_, forall_mem_set hinv.calls trivial⟩
    have hperm := perm_filterMap_set_take (f := InsertCall.holds) (b := .counting data) hcall
      rfl rfl
    exact hperm.nodup_iff.mpr (List.nodup_cons.mpr ⟨hfree, hinv.locks⟩)
  | count i data hcall =>
    refine hinv.set hcall (.inl rfl) ?_
    exact length_passkeysOf_eq_zero_iff.mp
  | create i data existing hcall =>
    refine hinv.set hcall (.inl rfl) ?_
    exact ⟨hinv.calls _ (List.mem_of_getElem? hcall), rfl⟩
  | commit i existing created hcall hcons =>
    refine ⟨hcons, hinv.locks.sublist (filterMap_set_sublist hcall (.inr rfl)), ?_⟩
    -- the others hold the locks of other users
    refine forall_mem_set_of_nodup (f := InsertCall.holds) hcall hinv.locks ?_ ?_
    · intro c hc hother
      apply (hinv.calls c hc).append
      rintro userId hholds rfl
      exact hother _ hholds rfl
    · exact (hinv.calls _ (List.mem_of_getElem? hcall)).2
  | abort i c hcall hopen => exact hinv.set hcall (.inr rfl) trivial
  | delete k userId credentialID haction hcall hpasskeys hinsertions =>
    refine Serialized.congr (s := { s with passkeys := deleteMany _ s.passkeys }) ?_ hpasskeys
      hinsertions
    refine ⟨hinv.passkeys.deleteMany, hinv.locks, fun c hc => ?_⟩
    exact (hinv.calls c hc).mono fun p hp => (mem_deleteMany.mp hp).1

theorem serialized_of_run {s₀ : State} {as : List Action} (h₀ : s₀.Initial)
    (hrun : run Credentials.step s₀ as = some s) : Serialized s :=
  run_invariant_always Serialized (fun _ _ _ hinv h => hinv.step (effect_of_step h))
    h₀.serialized hrun

end Serialization

/-! ### Accounts that hold a passkey -/

/-- The account holds a passkey. -/
def State.Holds (s : State) (userId : UserId) : Prop := ∃ p ∈ s.passkeys, p.userId = userId

/-- The passkey that the next statement of a removal is to delete. -/
def State.deletes (s : State) : Action → Option (UserId × String)
  | .advanceRemove k =>
    match s.removals[k]? with
    | some (.deleting userId credentialID) => some (userId, credentialID)
    | _ => none
  | _ => none

/-- A statement that deletes a passkey of the user finds another one of the same user. -/
def LeavesAnother (userId : UserId) (s : State) (a : Action) : Prop :=
  ∀ d ∈ s.deletes a, d.1 = userId →
    ∃ p ∈ s.passkeys, p.userId = userId ∧ p.credentialID ≠ d.2

instance (userId : UserId) (s : State) (a : Action) : Decidable (LeavesAnother userId s a) :=
  inferInstanceAs (Decidable (∀ d ∈ s.deletes a, _))

/-- What an insertion for the user has counted since the insertions stood as `before`. -/
def CountedSince (before : List InsertCall) (userId : UserId) (i : Nat) : InsertCall → Prop
  | .creating data existing => data.userId = userId → existing ≠ 0
  | .committing existing created => created.userId = userId → existing ≠ 0
  | .inserted existing created =>
    created.userId = userId → before[i]? ≠ some (.inserted existing created) → existing ≠ 0
  | _ => True

/-- The account holds a passkey, and every insertion has counted it. -/
structure Bootstrapped (before : List InsertCall) (userId : UserId) (s : State) : Prop where
  serialized : Serialized s
  holds : s.Holds userId
  counted : ∀ i c, s.insertions[i]? = some c → CountedSince before userId i c

section Holding

variable {s s' : State} {a : Action} {userId : UserId} {before : List InsertCall}

/-- While an account holds a passkey, no insertion for it has counted zero. -/
theorem bootstrapped_self (hinv : Serialized s) (hholds : s.Holds userId) :
    Bootstrapped s.insertions userId s := by
  obtain ⟨p, hp, hpu⟩ := hholds
  refine ⟨hinv, ⟨p, hp, hpu⟩, fun i c hc => ?_⟩
  have hok := hinv.calls c (List.mem_of_getElem? hc)
  cases c with
  | creating data existing => exact fun hu h0 => hok h0 p hp (hpu.trans hu.symm)
  | committing existing created => exact fun hu h0 => hok.1 h0 p hp (hpu.trans hu.symm)
  | inserted existing created => exact fun _ hnew => absurd hc hnew
  | _ => trivial

/-- An account keeps a passkey if every deletion leaves it one. -/
theorem State.Holds.step (h : Effect s a s') (hok : LeavesAnother userId s a)
    (hholds : s.Holds userId) : s'.Holds userId := by
  obtain ⟨p, hp, hpu⟩ := hholds
  cases h with
  | frame hpasskeys hinsertions => exact ⟨p, hpasskeys ▸ hp, hpu⟩
  | commit i existing created hcall hcons => exact ⟨p, List.mem_append_left _ hp, hpu⟩
  | delete k userId' credentialID haction hcall hpasskeys hinsertions =>
    unfold State.Holds
    rw [hpasskeys]
    by_cases hu : userId' = userId
    · subst hu
      have hdeletes : s.deletes a = some (userId', credentialID) := by
        rw [haction, State.deletes, hcall]
      obtain ⟨q, hq, hqu, hne⟩ := hok _ hdeletes rfl
      exact ⟨q, mem_deleteMany.mpr ⟨hq, decide_eq_false fun h => hne h.2⟩, hqu⟩
    · refine ⟨p, mem_deleteMany.mpr ⟨hp, decide_eq_false fun h => hu ?_⟩, hpu⟩
      exact h.1.symm.trans hpu
  | _ => exact ⟨p, hp, hpu⟩

theorem Bootstrapped.step (h : Effect s a s') (hok : LeavesAnother userId s a)
    (hinv : Bootstrapped before userId s) : Bootstrapped before userId s' := by
  refine ⟨hinv.serialized.step h, hinv.holds.step h hok, ?_⟩
  cases h with
  | frame _ hinsertions | delete _ _ _ _ _ _ hinsertions =>
    rw [hinsertions]
    exact hinv.counted
  | insert data => exact forall_getElem?_append hinv.counted trivial
  | acquire | abort => exact forall_getElem?_set hinv.counted trivial
  | count i data hcall =>
    refine forall_getElem?_set hinv.counted ?_
    -- the account holds a passkey, so the count is not zero
    rintro rfl hzero
    obtain ⟨p, hp, hpu⟩ := hinv.holds
    exact length_passkeysOf_eq_zero_iff.mp hzero p hp hpu
  | create i data existing hcall =>
    refine forall_getElem?_set hinv.counted ?_
    exact hinv.counted i (.creating data existing) hcall
  | commit i existing created hcall hcons =>
    refine forall_getElem?_set hinv.counted ?_
    intro hu _
    exact hinv.counted i _ hcall hu

/-- In a consistent table the gate reads the row of the passkey that the session acts with. -/
theorem find?_gateRow {passkeys : List Passkey} {row : Passkey} (hcons : Consistent passkeys)
    (hrow : row ∈ passkeys) :
    ((passkeysOf row.userId passkeys).map Passkey.gateRow).find?
      (fun q => q.credentialID = row.gateRow.credentialID) = some row.gateRow := by
  have hmem : row ∈ passkeysOf row.userId passkeys :=
    mem_findMany.mpr ⟨hrow, decide_eq_true rfl⟩
  rw [List.find?_map, Option.map_eq_some_iff]
  have hgate : Consistent (passkeysOf row.userId passkeys) := hcons.sublist List.filter_sublist
  refine ⟨row, (hgate.find?_eq_some_iff fun a b ha hb => ?_).mpr ⟨hmem, decide_eq_true rfl⟩, rfl⟩
  exact beq_iff_eq.mpr ((of_decide_eq_true ha).trans (of_decide_eq_true hb).symm)

end Holding

/-- **New passkeys are quarantined.** Take an account that holds a passkey at some point of a
run, and a passkey that an insertion adds to it after that. If from that point on every
deletion of a passkey of the account leaves it another one, then as long as the new passkey
is on the account, the gate lets a session that acts with it pass no earlier than 72 hours
after it was added. -/
theorem quarantined_of_run {s₀ s₁ s₂ : State} {as bs : List Action} {userId : UserId}
    (h₀ : s₀.Initial) (hbefore : run step s₀ as = some s₁) (hholds : s₁.Holds userId)
    (hafter : run step s₁ bs = some s₂) (hleaves : Along step (LeavesAnother userId) s₁ bs)
    {i existing : Nat} {created : Passkey} (huser : created.userId = userId)
    (hnew : s₁.insertions[i]? ≠ some (.inserted existing created))
    (hadded : s₂.insertions[i]? = some (.inserted existing created))
    (hstored : created ∈ s₂.passkeys) (now : Timestamp)
    (hpass : evaluateForUser s₂.passkeys userId (some created.credentialID) now = none) :
    created.addedAt + credentialQuarantineMs ≤ now := by
  have hinv : Bootstrapped s₁.insertions userId s₂ := by
    refine run_invariant (Bootstrapped s₁.insertions userId) ?_
      (bootstrapped_self (serialized_of_run h₀ hbefore) hholds) hleaves hafter
    intro s a s' hinv hok hstep
    exact hinv.step (effect_of_step hstep) hok
  -- the insertion counted a passkey, so it stamped a quarantine
  have hcount : existing ≠ 0 := hinv.counted i _ hadded huser hnew
  have hstamp : created.toLifecycle = lifecycleForNewPasskey existing created.addedAt :=
    hinv.serialized.calls _ (List.mem_of_getElem? hadded)
  rw [lifecycleForNewPasskey, if_neg hcount] at hstamp
  subst huser
  have hfound := find?_gateRow hinv.serialized.passkeys hstored
  exact untilMs_le_of_gate (p := created.gateRow) hpass hfound hstamp

section Race

/-- A session with a passkey. -/
def passkeySession : Principal := ⟨⟨some 2, false, none⟩, "cmallory01"⟩

/-- The row of a passkey that is added at time zero to an account with so many passkeys. -/
def enrolled (credentialID : String) (existing : Nat) : Passkey :=
  newPasskey ⟨credentialID, "cmallory01"⟩ existing 0

/-- Every statement of one insertion. -/
def enroll (i : Nat) (credentialID : String) : List Action :=
  [.insert ⟨credentialID, "cmallory01"⟩, .advanceInsert i, .advanceInsert i, .advanceInsert i,
    .advanceInsert i]

/-- An account to which two passkeys were added. -/
def twoPasskeys : State where
  passkeys := [enrolled "laptop" 0, enrolled "phone" 1]
  insertions := [.inserted 0 (enrolled "laptop" 0), .inserted 1 (enrolled "phone" 1)]

theorem run_enroll_two :
    run step {} (enroll 0 "laptop" ++ enroll 1 "phone") = some twoPasskeys := by
  decide +kernel

theorem twoPasskeys_holds : twoPasskeys.Holds "cmallory01" :=
  ⟨_, List.mem_cons_self, rfl⟩

/-- Two removals that both count two passkeys. -/
def removeBoth : List Action :=
  [.remove (some passkeySession) "laptop", .remove (some passkeySession) "phone",
    .advanceRemove 0, .advanceRemove 1, .advanceRemove 0, .advanceRemove 1, .advanceRemove 0,
    .advanceRemove 1]

def removeOne : List Action :=
  [.remove (some passkeySession) "laptop", .advanceRemove 0, .advanceRemove 0, .advanceRemove 0]

/-- Where removing one passkey and adding another leads. -/
def oneReplaced : State where
  passkeys := [enrolled "phone" 1, enrolled "tablet" 1]
  insertions := twoPasskeys.insertions ++ [.inserted 1 (enrolled "tablet" 1)]
  removals := [.removed]

/-- The passkey that replaces the removed one passes the gate 72 hours after it was added. -/
theorem oneReplaced_waits :
    run step twoPasskeys (removeOne ++ enroll 2 "tablet") = some oneReplaced ∧
      evaluateForUser oneReplaced.passkeys "cmallory01" (some "tablet") 259200000 = none ∧
      (enrolled "tablet" 1).addedAt + credentialQuarantineMs ≤ 259200000 := by
  have h₀ : State.Initial {} := ⟨.nil, rfl, rfl⟩
  have hafter : run step twoPasskeys (removeOne ++ enroll 2 "tablet") = some oneReplaced := by
    decide +kernel
  have hadded : oneReplaced.insertions[2]? = some (.inserted 1 (enrolled "tablet" 1)) := rfl
  have hpass : evaluateForUser oneReplaced.passkeys "cmallory01" (some "tablet") 259200000 =
      none := by
    decide +kernel
  refine ⟨hafter, hpass, quarantined_of_run h₀ run_enroll_two twoPasskeys_holds hafter ?_ rfl ?_
    hadded ?_ _ hpass⟩
  all_goals decide +kernel

/-- Where removing both passkeys at once and adding another leads. -/
def bothReplaced : State where
  passkeys := [enrolled "graft" 0]
  insertions := twoPasskeys.insertions ++ [.inserted 0 (enrolled "graft" 0)]
  removals := [.removed, .removed]

/-- Two removals at once leave no passkey, and the passkey that is added afterwards passes the
gate at once. -/
theorem bothReplaced_bypasses :
    State.Initial {} ∧ run step {} (enroll 0 "laptop" ++ enroll 1 "phone") = some twoPasskeys ∧
      twoPasskeys.Holds "cmallory01" ∧
      run step twoPasskeys (removeBoth ++ enroll 2 "graft") = some bothReplaced ∧
      twoPasskeys.insertions[2]? ≠ some (.inserted 0 (enrolled "graft" 0)) ∧
      bothReplaced.insertions[2]? = some (.inserted 0 (enrolled "graft" 0)) ∧
      enrolled "graft" 0 ∈ bothReplaced.passkeys ∧
      evaluateForUser bothReplaced.passkeys "cmallory01" (some "graft") bothReplaced.now = none ∧
      ¬(enrolled "graft" 0).addedAt + credentialQuarantineMs ≤ bothReplaced.now := by
  refine ⟨⟨.nil, rfl, rfl⟩, run_enroll_two, twoPasskeys_holds, ?_⟩
  decide +kernel

end Race

end Minister.Credentials

import Minister.Nullifier.AllOrNothing

/-!
# One wizard session, one issuance

A wizard session is meant to issue once: `submitStep` reads it only while its
`completedAt` is null, `resumeViaPendingToken` refuses a link whose session is completed,
and `issueBadgesAndComplete` marks the session at its end. The mark is the last statement
of the batch and the read the first, so two submissions that overlap both issue.
-/

namespace Minister.Sessions

open Relational Transition Issuance
open Wizard (batch? releases? uncaught ended failed exposed)

/-! ### Submissions -/

/-- What a submission finds beside the session row: whether `expiresAt` has passed, whether
the saved step is gone, whether the plugin is still registered, and the badges its step
completes with. -/
structure Seen where
  expired : Bool := false
  scrubbed : Bool := false
  registered : Bool := true
  badges : List IssuedBadge := []
  anonBackupPending : Bool := false

/-- Where a call stands before its batch. -/
inductive Lookup
  /-- `resumeViaPendingToken`. -/
  | resuming (token : String) (userId : UserId)
  /-- `submitStep`. -/
  | submitting (sessionId : String) (userId : UserId)
  /-- `deleteExpiredSession`. -/
  | expiring (sessionId : String)
  /-- The batch has been started. -/
  | issuing
  | refused (message : String)

/-- A badge that a call has issued for a session. -/
structure Minted where
  badgeId : String
  call : Nat
  sessionId : String

/-- The wizard, the submissions on their way to it, and every badge that was issued; the
code does not keep the last. -/
structure State where
  wizard : Wizard.State
  lookups : List Lookup := []
  minted : List Minted := []

inductive Action
  | submitStep (sessionId : String) (userId : UserId)
  | resumeViaPendingToken (token : String) (userId : UserId)
  /-- The row of the link is read. -/
  | findToken (lookup : Nat) (expired : Bool)
  /-- The row of the session is read, and the plugin takes its step. -/
  | findSession (lookup : Nat) (seen : Seen)
  | deleteExpired (lookup : Nat)
  /-- Everything else of the wizard; batches are started by `findSession` only. -/
  | wizard (a : Wizard.Action)

/-- What `submitStep` does with the session it has read. -/
inductive Reading
  | refuse (message : String)
  | expire
  | issue (pluginId : String)

def isStart : Wizard.Action → Bool
  | .server (.issueBadgesAndComplete _ _ _ _ _) => true
  | _ => false

/-- The badges that a step of the server inserts. -/
def mintedBy (s : Issuance.State) : Wizard.Action → List Minted
  | .server (.issueBadge i badgeId) =>
    match s.calls[i]? with
    | some (.minting b badge target) =>
      match create ⟨badgeId, b.userId, badge.type, none, target.map (·.ref)⟩ s.db.badge with
      | .ok _ => [⟨badgeId, i, b.sessionId⟩]
      | .error _ => []
    | _ => []
  | _ => []

namespace State

variable (s : State)

def sessions : List WizardSession := s.wizard.server.db.wizardSession

def setLookup (k : Nat) (l : Lookup) : State := { s with lookups := s.lookups.set k l }

def addLookup (l : Lookup) : State := { s with lookups := s.lookups ++ [l] }

/-- The row is looked up by its token alone. -/
def afterToken (token : String) (userId : UserId) (expired : Bool) : Lookup :=
  match s.sessions.find? fun w => w.pendingToken = some token with
  | none => .refused "Link is invalid or already used"
  | some w =>
    if w.userId ≠ userId then
      .refused
        "Link belongs to a different account. Sign in as that user and click the link again."
    else if expired then .refused "Link has expired"
    else if w.id ∈ s.wizard.completed then .refused "Link is already used"
    else .submitting w.id userId

def findToken (k : Nat) (expired : Bool) : Option State :=
  match s.lookups[k]? with
  | some (.resuming token userId) => some (s.setLookup k (s.afterToken token userId expired))
  | _ => none

/-- The session is read only while its `completedAt` is null. -/
def read (sessionId : String) (userId : UserId) (seen : Seen) : Reading :=
  match s.sessions.find? fun w =>
    w.id = sessionId ∧ w.userId = userId ∧ w.id ∉ s.wizard.completed with
  | none => .refuse "Wizard session not found"
  | some w =>
    if seen.expired then .expire
    else if seen.scrubbed then .refuse "This verification was reset — start over."
    else if seen.registered = false then .refuse "Plugin no longer registered"
    else .issue w.pluginId

def findSession (k : Nat) (seen : Seen) : Option State :=
  match s.lookups[k]? with
  | some (.submitting sessionId userId) =>
    match s.read sessionId userId seen with
    | .refuse message => some (s.setLookup k (.refused message))
    | .expire => some (s.setLookup k (.expiring sessionId))
    | .issue pluginId =>
      some { s.setLookup k .issuing with
        wizard := { s.wizard with
          server := s.wizard.server.startBatch sessionId userId pluginId seen.badges
            seen.anonBackupPending } }
  | _ => none

def deleteExpired (k : Nat) : Option State :=
  match s.lookups[k]? with
  | some (.expiring sessionId) =>
    some { s.setLookup k (.refused "Wizard session expired") with
      wizard := s.wizard.setSessions (deleteMany
        (fun w => w.id = sessionId ∧ w.id ∉ s.wizard.completed) s.sessions) }
  | _ => none

end State

def step (env : MacEnv) (s : State) : Action → Option State
  | .submitStep sessionId userId => some (s.addLookup (.submitting sessionId userId))
  | .resumeViaPendingToken token userId => some (s.addLookup (.resuming token userId))
  | .findToken k expired => s.findToken k expired
  | .findSession k seen => s.findSession k seen
  | .deleteExpired k => s.deleteExpired k
  | .wizard a =>
    if isStart a then none
    else (Wizard.step env s.wizard a).map fun t =>
      { s with wizard := t, minted := mintedBy s.wizard.server a ++ s.minted }

/-! ### The property, and when it holds -/

/-- The badge is in the table. -/
def Remains (s : Issuance.State) (id : String) : Prop := ∃ x ∈ s.db.badge, x.id = id

/-- The badges of one session that remain were all issued by one call. -/
def SingleIssue (s : State) : Prop :=
  ∀ m ∈ s.minted, ∀ m' ∈ s.minted, m.sessionId = m'.sessionId →
    Remains s.wizard.server m.badgeId → Remains s.wizard.server m'.badgeId → m.call = m'.call

/-- The session for which the step starts a batch. -/
def State.starts (s : State) : Action → Option String
  | .findSession k seen =>
    match s.lookups[k]? with
    | some (.submitting sessionId userId) =>
      match s.read sessionId userId seen with
      | .issue _ => some sessionId
      | _ => none
    | _ => none
  | _ => none

/-- A batch is started only for a session that no running batch issues for. -/
def StartsAlone (s : State) (a : Action) : Prop :=
  ∀ w ∈ s.starts a, ∀ c ∈ s.wizard.server.calls, ∀ b ∈ batch? c, b.sessionId ≠ w

/-- The batch that throws in the step outside every `try`. -/
def State.uncaught (env : MacEnv) (s : State) : Action → Option Batch
  | .wizard a => s.wizard.uncaught env a
  | _ => none

/-- A statement outside a `try` throws only in a batch that has issued nothing. -/
def ThrowsUnissued (env : MacEnv) (s : State) (a : Action) : Prop :=
  ∀ b ∈ s.uncaught env a, b.createdIds = []

structure Orderly (env : MacEnv) (s : State) (a : Action) : Prop where
  startsAlone : StartsAlone s a
  throwsUnissued : ThrowsUnissued env s a

instance (s : State) (a : Action) : Decidable (StartsAlone s a) :=
  inferInstanceAs (Decidable (∀ w ∈ s.starts a, ∀ c ∈ s.wizard.server.calls, ∀ b ∈ batch? c,
    b.sessionId ≠ w))

instance (env : MacEnv) (s : State) (a : Action) : Decidable (ThrowsUnissued env s a) :=
  inferInstanceAs (Decidable (∀ b ∈ s.uncaught env a, b.createdIds = []))

instance (env : MacEnv) (s : State) (a : Action) : Decidable (Orderly env s a) :=
  decidable_of_iff (StartsAlone s a ∧ ThrowsUnissued env s a)
    ⟨fun h => ⟨h.1, h.2⟩, fun h => ⟨h.1, h.2⟩⟩

/-! ### What a running batch answers for -/

/-- A running batch: its session, the badges it has inserted, and whether it has deleted
them again. -/
@[ext] structure Account where
  sessionId : String
  createdIds : List String
  erased : Bool

def account (c : Call) : Option Account :=
  (batch? c).map fun b => ⟨b.sessionId, b.createdIds, (releases? c).isSome⟩

def accountAt (s : Issuance.State) (i : Nat) : Option Account := s.calls[i]?.bind account

section Accounts

variable {s s' : Issuance.State} {i : Nat} {c c' : Call}

theorem accountAt_set {p : Option Account} (hcall : s.calls[i]? = some c)
    (hcalls : s'.calls = s.calls.set i c') (haccount : account c' = p) :
    accountAt s' = Function.update (accountAt s) i p := by
  have hi := (List.getElem?_eq_some_iff.mp hcall).1
  subst haccount
  funext j
  simp only [accountAt, hcalls, List.getElem?_set, Function.update_apply]
  by_cases hij : i = j
  · subst hij
    simp [hi]
  · simp [hij, Ne.symm hij]

theorem accountAt_add (hcalls : s'.calls = s.calls ++ [c]) :
    accountAt s' = Function.update (accountAt s) s.calls.length (account c) := by
  funext j
  simp only [accountAt, hcalls, Function.update_apply]
  rcases lt_trichotomy j s.calls.length with hlt | rfl | hgt
  · rw [List.getElem?_append_left hlt, if_neg hlt.ne]
  · simp
  · rw [if_neg hgt.ne', List.getElem?_eq_none (by simp; omega), List.getElem?_eq_none hgt.le]

theorem accountAt_length : accountAt s s.calls.length = none := by
  simp [accountAt]

theorem accountAt_of_call (hcall : s.calls[i]? = some c) : accountAt s i = account c := by
  simp [accountAt, hcall]

end Accounts

/-- What a step of the wizard does to the running batches, to the badges and to the
completed sessions. -/
inductive Turn (hole : Option Batch) (new : List Minted) (s s' : Wizard.State) : Prop
  | stays (haccount : accountAt s'.server = accountAt s.server)
      (hbadge : ∀ id, Remains s'.server id → Remains s.server id)
      (hissued : s'.server.issued = s.server.issued)
      (hcompleted : s'.completed = s.completed) (hnew : new = [])
  | mints (i : Nat) (p : Account) (id : String) (hold : accountAt s.server i = some p)
      (haccount : accountAt s'.server =
        Function.update (accountAt s.server) i
          (some { p with createdIds := p.createdIds ++ [id] }))
      (herased : p.erased = false)
      (hbadge : ∀ x, Remains s'.server x → x = id ∨ Remains s.server x)
      (hfresh : id ∉ s.server.issuedIds)
      (hissued : s'.server.issuedIds = id :: s.server.issuedIds)
      (hcompleted : s'.completed = s.completed) (hnew : new = [⟨id, i, p.sessionId⟩])
  | erases (i : Nat) (p : Account) (hold : accountAt s.server i = some p)
      (haccount : accountAt s'.server =
        Function.update (accountAt s.server) i (some { p with erased := true }))
      (hbadge : ∀ id, Remains s'.server id → Remains s.server id ∧ id ∉ p.createdIds)
      (hrecorded : ∀ id ∈ p.createdIds, id ∈ s.server.issuedIds)
      (hissued : s'.server.issued = s.server.issued)
      (hcompleted : s'.completed = s.completed) (hnew : new = [])
  | ends (i : Nat) (p : Account) (hold : accountAt s.server i = some p)
      (haccount : accountAt s'.server = Function.update (accountAt s.server) i none)
      (hbadge : s'.server.db.badge = s.server.db.badge)
      (hissued : s'.server.issued = s.server.issued)
      (hkept : ∀ w ∈ s.completed, w ∈ s'.completed)
      (hcompleted : ∀ w ∈ s'.completed, w ∈ s.completed ∨ w = p.sessionId)
      (hend : p.erased = true ∨ p.sessionId ∈ s'.completed ∨
        ∃ b ∈ hole, b.createdIds = p.createdIds)
      (hnew : new = [])

section Turns

variable {env : MacEnv} {hole : Option Batch} {s : Wizard.State} {t : Issuance.State} {i : Nat}
  {c c' : Call} {b : Batch} {a : Issuance.Action} {p : Account} {id : String}

/-- The session that is marked is that of the batch. -/
theorem mem_ended {sessionId w : String}
    (h : w ∈ (findMany (·.id = sessionId) s.server.db.wizardSession).map (·.id)) :
    w = sessionId := by
  obtain ⟨x, hx, rfl⟩ := List.mem_map.mp h
  simpa using (mem_findMany.mp hx).2

theorem remains_append {x : Badge} (hbadge : t.db.badge = s.server.db.badge ++ [x])
    (h : Remains t id) : id = x.id ∨ Remains s.server id := by
  obtain ⟨y, hy, hid⟩ := h
  rw [hbadge] at hy
  rcases List.mem_append.mp hy with hold | hnew
  · exact .inr ⟨y, hold, hid⟩
  · rw [List.mem_singleton.mp hnew] at hid
    exact .inl hid.symm

theorem remains_deleteMany {p : Badge → Bool}
    (hbadge : t.db.badge = deleteMany p s.server.db.badge) (h : Remains t id) :
    Remains s.server id := by
  obtain ⟨x, hx, hid⟩ := h
  rw [hbadge] at hx
  exact ⟨x, (mem_deleteMany.mp hx).1, hid⟩

/-- A call that is no batch answers for nothing. -/
theorem turn_addCall (hbatch : batch? c = none) :
    Turn hole [] s { s with server := s.server.addCall c } := by
  refine .stays ?_ (fun _ h => h) rfl rfl rfl
  have hnone : account c = none := by rw [account, hbatch, Option.map_none]
  rw [accountAt_add rfl, hnone]
  exact Function.update_eq_self_iff.mpr accountAt_length.symm

section Moves

variable (hcall : s.server.calls[i]? = some c)

include hcall

/-- The call has moved, and answers for what it answered for. -/
theorem turn_stays (hcalls : t.calls = s.server.calls.set i c')
    (haccount : account c' = account c) (hbadge : ∀ id, Remains t id → Remains s.server id)
    (hissued : t.issued = s.server.issued) : Turn hole [] s { s with server := t } := by
  refine .stays ?_ hbadge hissued rfl rfl
  rw [accountAt_set hcall hcalls haccount, ← accountAt_of_call hcall, Function.update_eq_self]

theorem turn_setCall (c' : Call) (haccount : account c' = account c) :
    Turn hole [] s { s with server := s.server.setCall i c' } :=
  turn_stays hcall rfl haccount (fun _ h => h) rfl

/-- The batch of the call ends. -/
theorem turn_ends {completed : List String} (hcalls : t.calls = s.server.calls.set i c')
    (haccount : account c = some p) (hnone : account c' = none)
    (hbadge : t.db.badge = s.server.db.badge) (hissued : t.issued = s.server.issued)
    (hkept : ∀ w ∈ s.completed, w ∈ completed)
    (hcompleted : ∀ w ∈ completed, w ∈ s.completed ∨ w = p.sessionId)
    (hend : p.erased = true ∨ p.sessionId ∈ completed ∨ ∃ b ∈ hole, b.createdIds = p.createdIds) :
    Turn hole [] s { s with server := t, completed } :=
  .ends i p ((accountAt_of_call hcall).trans haccount) (accountAt_set hcall hcalls hnone) hbadge
    hissued hkept hcompleted hend rfl

/-- The batch throws where nothing compensates it. -/
theorem turn_uncaught {error : Option String}
    (haccount : account c = some ⟨b.sessionId, b.createdIds, false⟩) (hhole : hole = some b) :
    Turn hole [] s { s with server := s.server.setCall i (.returned error) } :=
  turn_ends hcall rfl haccount rfl rfl rfl (fun _ h => h) (fun _ h => .inl h)
    (.inr (.inr ⟨b, hhole, rfl⟩))

/-- The batch ends where it marks its session, if the session is there or what ends it
otherwise is known. -/
theorem turn_marks {ended : List String} (hcalls : t.calls = s.server.calls.set i c')
    (haccount : account c = some p) (hnone : account c' = none)
    (hbadge : t.db.badge = s.server.db.badge) (hissued : t.issued = s.server.issued)
    (hended : ended = (findMany (·.id = p.sessionId) s.server.db.wizardSession).map (·.id))
    (hend : p.erased = true ∨ (∃ w ∈ s.server.db.wizardSession, w.id = p.sessionId) ∨
      ∃ b ∈ hole, b.createdIds = p.createdIds) :
    Turn hole [] s { s with server := t, completed := ended ++ s.completed } := by
  subst hended
  refine turn_ends hcall hcalls haccount hnone hbadge hissued
    (fun _ h => List.mem_append_right _ h) ?_ (hend.imp_right (.imp_left ?_))
  · exact fun w hw => (List.mem_append.mp hw).symm.imp_right mem_ended
  · rintro ⟨w, hw, hid⟩
    exact List.mem_append_left _
      (List.mem_map.mpr ⟨w, mem_findMany.mpr ⟨hw, decide_eq_true hid⟩, hid⟩)

theorem turn_of_pass (h : Pass env s.server i a c c') :
    Turn (uncaught env s.server a) (mintedBy s.server (.server a)) s
      { s with
        server := s.server.setCall i c', completed := ended s.server a ++ s.completed } := by
  cases h with
  | claimThrows hfails | rereadThrows hfails | registerThrows hfails =>
    refine turn_uncaught hcall rfl ?_
    simp [uncaught, hcall, hfails]
  | insertThrows hcreate =>
    simp only [mintedBy, hcall, hcreate]
    exact turn_setCall hcall _ rfl
  | compensated =>
    exact turn_ends hcall rfl rfl rfl rfl rfl (fun _ h => h) (fun _ h => .inl h) (.inl rfl)
  | scrubThrows =>
    refine turn_marks hcall rfl rfl rfl rfl rfl ?_ (.inl rfl)
    simp only [ended, hcall]
  | completeThrows hupdate =>
    refine turn_marks hcall rfl rfl rfl rfl rfl ?_ (.inr (.inr ⟨_, ?_, rfl⟩))
    · simp only [ended, hcall]
    · simp only [uncaught, hcall, hupdate]
      rfl
  | _ => exact turn_setCall hcall _ rfl

theorem turn_of_effect (hs : Inv env s.server) (h : Effect env s.server i a c t c') :
    Turn (uncaught env s.server a) (mintedBy s.server (.server a)) s
      { s with server := t.setCall i c', completed := ended s.server a ++ s.completed } := by
  cases h with
  | pass hp => exact turn_of_pass hcall hp
  | claims | losesClaim | registers | reregisters | releases | releasesEntry =>
    exact turn_stays hcall rfl rfl (fun _ h => h) rfl
  | inserts hfresh hcons | insertsAnchored hfresh hcons =>
    refine .mints i ⟨_, _, false⟩ _ (accountAt_of_call hcall) (accountAt_set hcall rfl rfl) rfl
      (fun x hx => remains_append rfl hx) hfresh rfl rfl ?_
    have hcreate := create_eq_ok_iff.mpr ⟨hcons, rfl⟩
    simp only [mintedBy, hcall, Option.map, hcreate]
  | repoints =>
    refine turn_stays hcall rfl rfl ?_ rfl
    rintro _ ⟨x, hx, rfl⟩
    -- The badge that is re-pointed keeps its id.
    obtain ⟨y, hy, rfl⟩ := List.mem_map.mp hx
    refine ⟨y, hy, ?_⟩
    split_ifs <;> rfl
  | erases =>
    -- All badges of the batch go, since they are all its account's.
    have hb : BatchOk s.server _ := hs.call_ok hcall
    refine .erases i ⟨_, _, false⟩ (accountAt_of_call hcall) (accountAt_set hcall rfl rfl) ?_
      hb.recorded rfl rfl rfl
    intro id hid
    refine ⟨remains_deleteMany rfl hid, ?_⟩
    obtain ⟨x, hx, rfl⟩ := hid
    obtain ⟨hmem, hkept⟩ := mem_deleteMany.mp hx
    intro hmine
    exact of_decide_eq_false hkept ⟨hmine, hb.owned x hmem hmine⟩
  | scrubs =>
    refine turn_marks hcall rfl rfl rfl rfl rfl ?_ (.inl rfl)
    simp only [ended, hcall]
  | completes hupdate =>
    obtain ⟨⟨w, hw, hid⟩, -⟩ := update_eq_ok_iff.mp hupdate
    refine turn_marks hcall rfl rfl rfl rfl rfl ?_ (.inr (.inl ⟨w, hw, of_decide_eq_true hid⟩))
    simp only [ended, hcall]
  | findsNone | deletes | deletesAnchored =>
    exact turn_stays hcall rfl rfl (fun _ => remains_deleteMany rfl) rfl

theorem turn_failed {error : String} (hfailed : failed error c = some c') :
    Turn (s.server.calls[i]?.bind exposed) [] s { s with server := s.server.setCall i c' } := by
  cases c with
  | readingHandle b | claimingHandle b | rereadingHandle b | registering b | completing b =>
    cases hfailed
    apply turn_uncaught hcall rfl
    rw [hcall]
    rfl
  | probing b | reregistering b | repointing b | reprobing b =>
    cases hfailed
    exact turn_setCall hcall _ rfl
  | _ => cases hfailed

end Moves

/-- Every step of the server is one of the four turns. -/
theorem turn_of_server (hs : Inv env s.server) (hstart : isStart (.server a) = false)
    (h : Issuance.step env s.server a = some t) :
    Turn (uncaught env s.server a) (mintedBy s.server (.server a)) s
      { s with server := t, completed := ended s.server a ++ s.completed } := by
  obtain hopens | ⟨hcall, heffect⟩ := effect_of_step h
  · cases hopens with
    | gated | starts => cases hstart
    | notFound | findsUnanchored | findsAnchored => exact turn_addCall rfl
  · exact turn_of_effect hcall hs heffect

/-- Every step of the wizard is one of the four turns. -/
theorem turn_of_step {s' : Wizard.State} {a : Wizard.Action} (hs : Inv env s.server)
    (hstart : isStart a = false) (h : Wizard.step env s a = some s') :
    Turn (s.uncaught env a) (mintedBy s.server a) s s' := by
  rcases Wizard.effect_of_step h with ⟨b, t, rfl, hb, rfl⟩ |
    ⟨i, error, c, c', rfl, hcall, hfailed, rfl⟩ | ⟨hother, ⟨u, hu⟩, hcompleted⟩
  · exact turn_of_server hs hstart hb
  · exact turn_failed hcall hfailed
  · have hnone : mintedBy s.server a = [] := by
      cases a with
      | server b => exact absurd rfl (hother b)
      | _ => rfl
    refine .stays ?_ ?_ ?_ hcompleted hnone
    · rw [hu]
      rfl
    · rw [hu]
      exact fun _ h => h
    · rw [hu]
      rfl

end Turns

/-! ### What every turn keeps -/

section Turn

variable {hole : Option Batch} {new : List Minted} {s s' : Wizard.State} {i : Nat} {p : Account}
  {id : String}

variable (ht : Turn hole new s s')

include ht

theorem Turn.issuedIds (h : id ∈ s.server.issuedIds) : id ∈ s'.server.issuedIds := by
  cases ht with
  | stays _ _ hissued | erases _ _ _ _ _ _ hissued | ends _ _ _ _ _ hissued =>
    rwa [Issuance.State.issuedIds, hissued]
  | mints _ _ _ _ _ _ _ _ hissued =>
    rw [hissued]
    exact List.mem_cons_of_mem _ h

/-- Only a badge with a new id appears. -/
theorem Turn.remains (hid : id ∈ s.server.issuedIds) (h : Remains s'.server id) :
    Remains s.server id := by
  cases ht with
  | stays _ hbadge => exact hbadge id h
  | mints _ _ _ _ _ _ hbadge hfresh =>
    apply (hbadge id h).resolve_left
    rintro rfl
    exact hfresh hid
  | erases _ _ _ _ hbadge => exact (hbadge id h).1
  | ends _ _ _ _ hbadge => rwa [Remains, ← hbadge]

theorem Turn.kept {w : String} (h : w ∈ s.completed) : w ∈ s'.completed := by
  cases ht with
  | stays _ _ _ hcompleted | mints _ _ _ _ _ _ _ _ _ hcompleted | erases _ _ _ _ _ _ _ hcompleted =>
    rwa [hcompleted]
  | ends _ _ _ _ _ _ hkept => exact hkept w h

/-- A running batch was running before, for the same session. -/
theorem Turn.session (h : accountAt s'.server i = some p) :
    ∃ q, accountAt s.server i = some q ∧ q.sessionId = p.sessionId := by
  have hupdate {j : Nat} {q : Account} {r : Option Account} (hold : accountAt s.server j = some q)
      (hr : ∀ p ∈ r, q.sessionId = p.sessionId)
      (haccount : accountAt s'.server = Function.update (accountAt s.server) j r) :
      ∃ q, accountAt s.server i = some q ∧ q.sessionId = p.sessionId := by
    rw [haccount, Function.update_apply] at h
    split_ifs at h with hij
    · exact ⟨q, hij ▸ hold, hr p h⟩
    · exact ⟨p, h, rfl⟩
  cases ht with
  | stays haccount => exact ⟨p, haccount ▸ h, rfl⟩
  | mints _ _ _ hold haccount | erases _ _ hold haccount =>
    exact hupdate hold (by rintro _ ⟨⟩; rfl) haccount
  | ends j q hold haccount => exact hupdate hold (by rintro _ ⟨⟩) haccount

/-- A session is completed by the batch that was running for it. -/
theorem Turn.completed {w : String} (h : w ∈ s'.completed) :
    w ∈ s.completed ∨ ∃ i p, accountAt s.server i = some p ∧ p.sessionId = w ∧
      accountAt s'.server i = none := by
  cases ht with
  | stays _ _ _ hcompleted | mints _ _ _ _ _ _ _ _ _ hcompleted | erases _ _ _ _ _ _ _ hcompleted =>
    exact .inl (hcompleted ▸ h)
  | ends i p hold haccount _ _ _ hcompleted =>
    refine (hcompleted w h).imp_right fun hw => ⟨i, p, hold, hw.symm, ?_⟩
    rw [haccount, Function.update_self]

/-- A batch that has erased its badges had done so before, or does so now. -/
theorem Turn.erased (h : accountAt s'.server i = some p) (herased : p.erased = true) :
    accountAt s.server i = some p ∨
      ∀ id ∈ p.createdIds, id ∈ s.server.issuedIds ∧ ¬ Remains s'.server id := by
  cases ht with
  | stays haccount => exact .inl (haccount ▸ h)
  | mints j q _ _ haccount hkept =>
    rw [haccount, Function.update_apply] at h
    split_ifs at h with hij
    · cases h
      exact absurd (hkept.symm.trans herased) Bool.false_ne_true
    · exact .inl h
  | erases j q _ haccount hbadge hrecorded =>
    rw [haccount, Function.update_apply] at h
    split_ifs at h with hij
    · cases h
      exact .inr fun id hid => ⟨hrecorded id hid, fun hremains => (hbadge id hremains).2 hid⟩
    · exact .inl h
  | ends j q _ haccount =>
    rw [haccount, Function.update_apply] at h
    split_ifs at h
    exact .inl h

/-- A badge that remains is still answered for, unless its batch has ended: then its
session is completed, or the badges were erased before. -/
theorem Turn.answers (hhole : ∀ b ∈ hole, b.createdIds = []) (hp : accountAt s.server i = some p)
    (hid : id ∈ p.createdIds) (hremains : Remains s'.server id) :
    (∃ q, accountAt s'.server i = some q ∧ q.sessionId = p.sessionId ∧ id ∈ q.createdIds) ∨
      p.sessionId ∈ s'.completed ∨ p.erased = true := by
  cases ht with
  | stays haccount => exact .inl ⟨p, haccount ▸ hp, rfl, hid⟩
  | mints j q new hold haccount =>
    left
    rw [haccount, Function.update_apply]
    split_ifs with hij
    · obtain rfl := Option.some.inj (hp.symm.trans (hij ▸ hold))
      exact ⟨_, rfl, rfl, List.mem_append_left _ hid⟩
    · exact ⟨p, hp, rfl, hid⟩
  | erases j q hold haccount hbadge =>
    left
    rw [haccount, Function.update_apply]
    split_ifs with hij
    · obtain rfl := Option.some.inj (hp.symm.trans (hij ▸ hold))
      exact absurd hid (hbadge id hremains).2
    · exact ⟨p, hp, rfl, hid⟩
  | ends j q hold haccount _ _ _ _ hend =>
    by_cases hij : i = j
    · right
      obtain rfl := Option.some.inj (hp.symm.trans (hij ▸ hold))
      rcases hend with herased | hcompleted | ⟨b, hb, hids⟩
      · exact .inr herased
      · exact .inl hcompleted
      · rw [← hids, hhole b hb] at hid
        cases hid
    · left
      rw [haccount, Function.update_of_ne hij]
      exact ⟨p, hp, rfl, hid⟩

/-- A badge that is inserted is answered for by a running batch. -/
theorem Turn.minted : new = [] ∨ ∃ m q r, new = [m] ∧
    accountAt s.server m.call = some q ∧ q.sessionId = m.sessionId ∧
    accountAt s'.server m.call = some r ∧ r.sessionId = m.sessionId ∧
    m.badgeId ∈ r.createdIds ∧ m.badgeId ∈ s'.server.issuedIds := by
  cases ht with
  | stays _ _ _ _ hnew | erases _ _ _ _ _ _ _ _ hnew | ends _ _ _ _ _ _ _ _ _ hnew =>
    exact .inl hnew
  | mints i q id hold haccount _ _ _ hissued _ hnew =>
    refine .inr ⟨_, q, { q with createdIds := q.createdIds ++ [id] }, hnew, hold, rfl, ?_, rfl,
      List.mem_append_right _ (List.mem_singleton_self id), ?_⟩
    · rw [haccount, Function.update_self]
    · rw [hissued]
      exact List.mem_cons_self

end Turn

/-! ### Runs -/

/-- The running batches are of distinct sessions that are not completed, and each badge
that remains is in the batch that issued it or of a completed session. -/
structure Exclusive (s : Wizard.State) (minted : List Minted) : Prop where
  alone : ∀ i j p q, accountAt s.server i = some p → accountAt s.server j = some q →
    p.sessionId = q.sessionId → i = j
  running : ∀ i p, accountAt s.server i = some p → p.sessionId ∉ s.completed
  erased : ∀ i p, accountAt s.server i = some p → p.erased = true →
    ∀ id ∈ p.createdIds, id ∈ s.server.issuedIds ∧ ¬ Remains s.server id
  recorded : ∀ m ∈ minted, m.badgeId ∈ s.server.issuedIds
  held : ∀ m ∈ minted, Remains s.server m.badgeId → m.sessionId ∈ s.completed ∨
    ∃ p, accountAt s.server m.call = some p ∧ p.sessionId = m.sessionId ∧
      m.badgeId ∈ p.createdIds
  single : ∀ m ∈ minted, ∀ m' ∈ minted, m.sessionId = m'.sessionId →
    Remains s.server m.badgeId → Remains s.server m'.badgeId → m.call = m'.call

section Runs

variable {env : MacEnv} {hole : Option Batch} {new minted : List Minted}
  {sessionId pluginId : String} {userId : UserId} {seen : Seen}

/-- What remains of a running batch's session is what the batch itself has issued. -/
theorem Exclusive.call_eq {s : Wizard.State} {m : Minted} {i : Nat} {p : Account}
    (h : Exclusive s minted) (hm : m ∈ minted) (hremains : Remains s.server m.badgeId)
    (hp : accountAt s.server i = some p) (hsession : p.sessionId = m.sessionId) : i = m.call := by
  rcases h.held m hm hremains with hcompleted | ⟨q, hq, hqs, -⟩
  · exact absurd (hsession ▸ hcompleted) (h.running i p hp)
  · exact h.alone i m.call p q hp hq (hsession.trans hqs.symm)

/-- The step lemma for the wizard. -/
theorem Exclusive.turn {s s' : Wizard.State} (h : Exclusive s minted) (ht : Turn hole new s s')
    (hhole : ∀ b ∈ hole, b.createdIds = []) : Exclusive s' (new ++ minted) where
  alone := by
    intro i j p q hp hq hpq
    obtain ⟨p', hp', hps⟩ := ht.session hp
    obtain ⟨q', hq', hqs⟩ := ht.session hq
    exact h.alone i j p' q' hp' hq' (hps.trans (hpq.trans hqs.symm))
  running := by
    intro i p hp hcompleted
    obtain ⟨p', hp', hps⟩ := ht.session hp
    rcases ht.completed hcompleted with hold | ⟨j, q, hq, hqs, hnone⟩
    · exact h.running i p' hp' (hps ▸ hold)
    · -- The batch that has completed the session runs no more.
      obtain rfl := h.alone i j p' q hp' hq (hps.trans hqs.symm)
      rw [hp] at hnone
      cases hnone
  erased := by
    intro i p hp herased id hid
    rcases ht.erased hp herased with hold | hnew
    · obtain ⟨hrecorded, hgone⟩ := h.erased i p hold herased id hid
      exact ⟨ht.issuedIds hrecorded, fun hremains => hgone (ht.remains hrecorded hremains)⟩
    · exact ⟨ht.issuedIds (hnew id hid).1, (hnew id hid).2⟩
  recorded := by
    intro m hm
    rcases List.mem_append.mp hm with hnew | hold
    · rcases ht.minted with rfl | ⟨m', _, _, rfl, -, -, -, -, -, hissued⟩
      · cases hnew
      · rwa [List.mem_singleton.mp hnew]
    · exact ht.issuedIds (h.recorded m hold)
  held := by
    intro m hm hremains
    rcases List.mem_append.mp hm with hnew | hold
    · rcases ht.minted with rfl | ⟨m', _, r, rfl, -, -, hr, hrs, hid, -⟩
      · cases hnew
      · rw [List.mem_singleton.mp hnew]
        exact .inr ⟨r, hr, hrs, hid⟩
    · have hbefore := ht.remains (h.recorded m hold) hremains
      rcases h.held m hold hbefore with hcompleted | ⟨p, hp, hps, hid⟩
      · exact .inl (ht.kept hcompleted)
      · rcases ht.answers hhole hp hid hremains with ⟨q, hq, hqs, hidq⟩ | hcompleted | herased
        · exact .inr ⟨q, hq, hqs.trans hps, hidq⟩
        · exact .inl (hps ▸ hcompleted)
        · exact absurd hbefore (h.erased m.call p hp herased m.badgeId hid).2
  single := by
    intro m hm m' hm' hsession hremains hremains'
    rcases ht.minted with rfl | ⟨new, q, _, rfl, hq, hqs, -⟩
    · exact h.single m hm m' hm' hsession (ht.remains (h.recorded m hm) hremains)
        (ht.remains (h.recorded m' hm') hremains')
    · -- The badge just inserted is of a running batch, which answers for all of the session.
      rcases List.mem_cons.mp hm with rfl | hold
      · rcases List.mem_cons.mp hm' with rfl | hold'
        · rfl
        · exact h.call_eq hold' (ht.remains (h.recorded m' hold') hremains') hq
            (hqs.trans hsession)
      · have hbefore := ht.remains (h.recorded m hold) hremains
        rcases List.mem_cons.mp hm' with rfl | hold'
        · exact (h.call_eq hold hbefore hq (hqs.trans hsession.symm)).symm
        · exact h.single m hold m' hold' hsession hbefore
            (ht.remains (h.recorded m' hold') hremains')

/-- A batch is started for a session that is neither completed nor being issued for. -/
theorem Exclusive.startBatch {s : Wizard.State} (h : Exclusive s minted)
    {issued : List IssuedBadge} {anonBackupPending : Bool} (hopen : sessionId ∉ s.completed)
    (halone : ∀ i p, accountAt s.server i = some p → p.sessionId ≠ sessionId) :
    Exclusive { s with server :=
      s.server.startBatch sessionId userId pluginId issued anonBackupPending } minted := by
  obtain ⟨r, hr, haccount⟩ : ∃ r : Option Account,
      (∀ p ∈ r, p.sessionId = sessionId ∧ p.erased = false) ∧
      accountAt (s.server.startBatch sessionId userId pluginId issued anonBackupPending) =
        Function.update (accountAt s.server) s.server.calls.length r := by
    refine ⟨_, ?_, accountAt_add rfl⟩
    split_ifs
    · rintro _ ⟨⟩
    · rintro _ ⟨⟩
      exact ⟨rfl, rfl⟩
  -- The batches that ran before run on.
  have hcases {i : Nat} {p : Account} (hp : accountAt
      (s.server.startBatch sessionId userId pluginId issued anonBackupPending) i = some p) :
      accountAt s.server i = some p ∨
        i = s.server.calls.length ∧ p.sessionId = sessionId ∧ p.erased = false := by
    rw [haccount, Function.update_apply] at hp
    split_ifs at hp with hi
    · exact .inr ⟨hi, hr p hp⟩
    · exact .inl hp
  constructor
  · intro i j p q hp hq hpq
    rcases hcases hp with hp | ⟨hi, hps, -⟩
    · rcases hcases hq with hq | ⟨-, hqs, -⟩
      · exact h.alone i j p q hp hq hpq
      · exact absurd (hpq.trans hqs) (halone i p hp)
    · rcases hcases hq with hq | ⟨hj, -⟩
      · exact absurd (hpq.symm.trans hps) (halone j q hq)
      · exact hi.trans hj.symm
  · intro i p hp
    rcases hcases hp with hp | ⟨-, hps, -⟩
    · exact h.running i p hp
    · exact hps ▸ hopen
  · intro i p hp herased
    rcases hcases hp with hp | ⟨-, -, hfalse⟩
    · exact h.erased i p hp herased
    · exact absurd (hfalse.symm.trans herased) Bool.false_ne_true
  · exact h.recorded
  · intro m hm hremains
    refine (h.held m hm hremains).imp_right fun ⟨p, hp, hrest⟩ => ⟨p, ?_, hrest⟩
    have hne : m.call ≠ s.server.calls.length := by
      intro heq
      rw [heq, accountAt_length] at hp
      cases hp
    rw [haccount, Function.update_of_ne hne]
    exact hp
  · exact h.single

structure Sound (env : MacEnv) (s : State) : Prop where
  inv : Inv env s.wizard.server
  exclusive : Exclusive s.wizard s.minted

theorem Sound.congr {s s' : State} (h : Sound env s) (hwizard : s'.wizard = s.wizard)
    (hminted : s'.minted = s.minted) : Sound env s' where
  inv := hwizard ▸ h.inv
  exclusive := hwizard ▸ hminted ▸ h.exclusive

theorem inv_wizard {s s' : Wizard.State} {a : Wizard.Action} (hs : Inv env s.server)
    (h : Wizard.step env s a = some s') : Inv env s'.server := by
  rcases Wizard.effect_of_step h with ⟨b, t, rfl, hb, rfl⟩ |
    ⟨i, error, c, c', rfl, hcall, hfailed, rfl⟩ | ⟨-, ⟨u, hu⟩, -⟩
  · exact inv_step hs hb
  · exact Wizard.inv_failed hs hcall hfailed
  · rw [hu]
    exact Wizard.inv_setSessions hs u

/-- A session that `submitStep` issues for is not completed. -/
theorem not_completed_of_read {s : State} (h : s.read sessionId userId seen = .issue pluginId) :
    sessionId ∉ s.wizard.completed := by
  unfold State.read at h
  split at h
  · cases h
  · rename_i w hfind
    have hw : w.id = sessionId ∧ w.userId = userId ∧ w.id ∉ s.wizard.completed := by
      simpa using List.find?_some hfind
    exact hw.1 ▸ hw.2.2

theorem Sound.findSession {s s' : State} {k : Nat} (hs : Sound env s)
    (halone : StartsAlone s (.findSession k seen)) (h : s.findSession k seen = some s') :
    Sound env s' := by
  unfold State.findSession at h
  split at h
  · rename_i sessionId userId hlookup
    split at h
    · cases h
      exact hs.congr rfl rfl
    · cases h
      exact hs.congr rfl rfl
    · rename_i pluginId hread
      cases h
      constructor
      · exact inv_step hs.inv (a := .issueBadgesAndComplete sessionId userId pluginId seen.badges
          seen.anonBackupPending) rfl
      · apply hs.exclusive.startBatch (not_completed_of_read hread)
        intro i p hp
        obtain ⟨c, hcall, hc⟩ := Option.bind_eq_some_iff.mp hp
        obtain ⟨b, hb, rfl⟩ := Option.map_eq_some_iff.mp hc
        apply halone sessionId _ c (List.mem_of_getElem? hcall) b hb
        simp only [State.starts, hlookup, hread]
        rfl
  · cases h

/-- The step lemma. -/
theorem Sound.step {s s' : State} {a : Action} (hs : Sound env s) (hok : Orderly env s a)
    (h : step env s a = some s') : Sound env s' := by
  cases a with
  | submitStep | resumeViaPendingToken =>
    cases h
    exact hs.congr rfl rfl
  | findToken k expired =>
    change s.findToken k expired = some s' at h
    unfold State.findToken at h
    split at h <;> cases h
    exact hs.congr rfl rfl
  | findSession k seen => exact hs.findSession hok.startsAlone h
  | deleteExpired k =>
    change s.deleteExpired k = some s' at h
    unfold State.deleteExpired at h
    split at h <;> cases h
    refine ⟨Wizard.inv_setSessions hs.inv _, ?_⟩
    have hturn (t : List WizardSession) : Turn none [] s.wizard (s.wizard.setSessions t) :=
      .stays rfl (fun _ h => h) rfl rfl rfl
    exact hs.exclusive.turn (hturn _) nofun
  | wizard a =>
    simp only [Sessions.step] at h
    split_ifs at h with hstart
    obtain ⟨t, ht, rfl⟩ := Option.map_eq_some_iff.mp h
    refine ⟨inv_wizard hs.inv ht, ?_⟩
    exact hs.exclusive.turn (turn_of_step hs.inv (Bool.eq_false_iff.mpr hstart) ht)
      hok.throwsUnissued

/-- A database before any call, with some sessions completed. -/
def start (issued : List (String × Option String)) (db : Db) (completed : List String) : State where
  wizard := Wizard.start issued db completed

theorem sound_start {issued : List (String × Option String)} {db : Db} (completed : List String)
    (hdb : Settled env issued db) : Sound env (start issued db completed) where
  inv := hdb.inv
  exclusive := ⟨nofun, nofun, nofun, nofun, nofun, nofun⟩

/-- However submissions, resumptions, failures and other wizards interleave, the badges of
a session that remain were issued by one call. -/
theorem singleIssue_of_run {issued : List (String × Option String)} {db : Db}
    {completed : List String} {as : List Action} {s : State} (hdb : Settled env issued db)
    (hok : Along (step env) (Orderly env) (start issued db completed) as)
    (hrun : run (step env) (start issued db completed) as = some s) : SingleIssue s := by
  have hs : Sound env s := by
    apply run_invariant (Sound env) _ (sound_start completed hdb) hok hrun
    intro s a s' hs hok h
    exact hs.step hok h
  exact hs.exclusive.single

end Runs

/-- A badge without an anchor. -/
def inviteBadge : IssuedBadge := ⟨"invite-code", none, false, false, none⟩

/-- The second badge of a batch cannot be signed: the first is deleted, and the session is
submitted once more. A third submission comes too late. -/
def retried : List Action :=
  [.submitStep "s1" "A", .findSession 0 { badges := [inviteBadge, inviteBadge] },
    .wizard (.server (.nextBadge 0)), .wizard (.server (.issueBadge 0 "b1")),
    .wizard (.server (.nextBadge 0)), .wizard (.server (.issueBadgeFails 0 "unsigned")),
    .wizard (.server (.deleteCreated 0)), .wizard (.server (.releaseNext 0)),
    .submitStep "s1" "A", .findSession 1 { badges := [inviteBadge] },
    .wizard (.server (.nextBadge 1)), .wizard (.server (.issueBadge 1 "b2")),
    .wizard (.server (.nextBadge 1)), .wizard (.server (.complete 1)),
    .submitStep "s1" "A", .findSession 2 { badges := [inviteBadge] }]

theorem retried_singleIssue : ∃ s, run (step sampleEnv) (start [] walletDb []) retried = some s ∧
    s.wizard.server.db.badge = [⟨"b2", "A", "invite-code", none, none⟩] ∧
    s.minted = [⟨"b2", 1, "s1"⟩, ⟨"b1", 0, "s1"⟩] ∧
    s.lookups[2]? = some (.refused "Wizard session not found") ∧ SingleIssue s := by
  have hok : Along (step sampleEnv) (Orderly sampleEnv) (start [] walletDb []) retried := by
    decide +kernel
  exact ⟨_, rfl, rfl, rfl, rfl, singleIssue_of_run Wizard.settled_walletDb hok rfl⟩

/-- The form is submitted twice, and the second submission reads the session while the first
is issuing. -/
def doubleSubmit : List Action :=
  [.submitStep "s1" "A", .submitStep "s1" "A", .findSession 0 { badges := [githubBadge] },
    .findSession 1 { badges := [githubBadge] },
    .wizard (.server (.nextBadge 0)), .wizard (.server (.readHandle 0)),
    .wizard (.server (.registerDedup 0 "e1")), .wizard (.server (.issueBadge 0 "b1")),
    .wizard (.server (.probe 0)), .wizard (.server (.nextBadge 0)),
    .wizard (.server (.complete 0)), .wizard (.server (.nextBadge 1)),
    .wizard (.server (.readHandle 1)), .wizard (.server (.registerDedup 1 "e2")),
    .wizard (.server (.issueBadge 1 "b2")), .wizard (.server (.probe 1)),
    .wizard (.server (.nextBadge 1)), .wizard (.server (.complete 1))]

/-- Both calls return without an error, and the wallet holds the badge twice. -/
theorem doubleSubmit_issues_twice : Settled sampleEnv [] walletDb ∧ ∃ s,
    run (step sampleEnv) (start [] walletDb []) doubleSubmit = some s ∧
    s.wizard.server.calls = [.returned none, .returned none] ∧
    s.wizard.server.db.badge = [⟨"b1", "A", "oauth-account", none, some "e1"⟩,
      ⟨"b2", "A", "oauth-account", none, some "e1"⟩] ∧ ¬ SingleIssue s := by
  refine ⟨Wizard.settled_walletDb, _, rfl, rfl, rfl, ?_⟩
  intro hsingle
  cases hsingle ⟨"b2", 1, "s1"⟩ List.mem_cons_self ⟨"b1", 0, "s1"⟩
    (List.mem_cons_of_mem _ List.mem_cons_self) rfl
    ⟨_, List.mem_cons_of_mem _ List.mem_cons_self, rfl⟩ ⟨_, List.mem_cons_self, rfl⟩

end Minister.Sessions

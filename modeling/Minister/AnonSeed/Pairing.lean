import Minister.Schema
import Minister.Transition.Pool
import Minister.Transition.Run

/-!
# The pairing relay

A device that wants the root of an account shows a code, which names a relay session. A device
that holds the root deposits it there, sealed, and the first device collects it with the secret
it got when it opened the session. The server stores the payload between the two.

A session is `waiting`, then `sealed`, then `claimed`. Opening a session, depositing and
collecting are calls of several statements each, and the statements of any number of calls, by
any users and with any arguments, interleave. In particular a collecting call reads the row with
its payload and clears it in two statements.

Session ids are drawn at random and do not repeat. What the relay records about the connections
of the two devices is left out, and so are the audit log and the mail.
-/

namespace Minister.Pairing

open Relational Transition

/-! ### Sessions -/

/-- `PAIR_TTL_MS`. -/
def pairTtlMs : Int := 3 * 60 * 1000

/-- `PAIR_SWEEP_GRACE_MS`. -/
def pairSweepGraceMs : Int := 60 * 60 * 1000

/-- SHA-256, as a hexadecimal string. -/
structure Env where
  sha256 : String → String

def hashSecret (env : Env) (secret : String) : String := env.sha256 secret

/-- Both sides are hexadecimal digests, so the comparison of the bytes is one of the strings. -/
def secretMatches (env : Env) (presented storedHash : String) : Bool :=
  hashSecret env presented = storedHash

/-- The values of the `state` column. -/
inductive SessionState
  | waiting
  | sealed
  | claimed
  deriving DecidableEq, Repr

structure PairSession extends AnonPairSession where
  state : SessionState := .waiting
  sealedPayload : Option String := none
  creatorSecretHash : String
  expiresAt : Timestamp
  deriving DecidableEq, Repr

instance : Constrained PairSession where
  clash a b := a.id == b.id

/-! ### Calls -/

/-- What `createPairSession` has drawn, and for whom. -/
structure Creation where
  userId : UserId
  sessionId : String
  creatorSecret : String
  expiresAt : Timestamp
  deriving DecidableEq, Repr

def Creation.row (env : Env) (c : Creation) : PairSession where
  id := c.sessionId
  userId := c.userId
  creatorSecretHash := hashSecret env c.creatorSecret
  expiresAt := c.expiresAt

structure SealArgs where
  sessionId : String
  sessionUserId : UserId
  payload : String
  deriving DecidableEq, Repr

inductive SealRefusal
  | crossAccount
  | expired
  | alreadyUsed
  | notFound
  deriving DecidableEq, Repr

inductive SealPairResult
  | ok
  | refused (reason : SealRefusal)
  deriving DecidableEq, Repr

structure ClaimArgs where
  sessionId : String
  sessionUserId : UserId
  creatorSecret : String
  deriving DecidableEq, Repr

inductive ClaimRefusal
  | notFound
  | forbidden
  | badSecret
  deriving DecidableEq, Repr

inductive ClaimPairResult
  | waiting
  | expired
  | claimed (payload : Option String)
  | refused (reason : ClaimRefusal)
  deriving DecidableEq, Repr

/-- A call, by what it does next. -/
inductive Call
  | sweeping (c : Creation)
  | creating (c : Creation)
  | created (c : Creation)
  | createFailed
  /-- The deposit, with the time the call has read. -/
  | sealing (args : SealArgs) (clock : Timestamp)
  /-- Nothing was deposited: find out why. -/
  | explaining (args : SealArgs) (clock : Timestamp)
  | sealReturned (args : SealArgs) (result : SealPairResult)
  | claiming (args : ClaimArgs)
  /-- Clear the payload of the row that was read. -/
  | clearing (args : ClaimArgs) (row : PairSession)
  | claimReturned (args : ClaimArgs) (result : ClaimPairResult)
  deriving DecidableEq, Repr

/-- The session id a call has drawn. -/
def Call.drawn? : Call → Option String
  | .sweeping c | .creating c | .created c => some c.sessionId
  | _ => none

/-- The payload a collecting call has got hold of, with the arguments of the call. -/
def Call.holds? : Call → Option (ClaimArgs × String)
  | .clearing args row => row.sealedPayload.map (args, ·)
  | .claimReturned args (.claimed payload) => payload.map (args, ·)
  | _ => none

/-- The rows a deposit may go to. -/
def takesDeposit (args : SealArgs) (clock : Timestamp) (r : PairSession) : Bool :=
  r.id = args.sessionId ∧ r.userId = args.sessionUserId ∧ r.state = .waiting ∧
    clock < r.expiresAt

def PairSession.seal (payload : String) (r : PairSession) : PairSession :=
  { r with state := .sealed, sealedPayload := some payload }

/-- The user-facing reason for a deposit that was not made. -/
def explainSeal (args : SealArgs) (clock : Timestamp) : Option PairSession → SealRefusal
  | none => .notFound
  | some row =>
    if row.userId ≠ args.sessionUserId then .crossAccount
    else if row.expiresAt ≤ clock then .expired
    else if row.state ≠ .waiting then .alreadyUsed
    else .notFound

/-- What a collecting call makes of the row it has read. -/
def readClaim (env : Env) (now : Timestamp) (args : ClaimArgs) : Option PairSession → Call
  | none => .claimReturned args (.refused .notFound)
  | some row =>
    if row.userId ≠ args.sessionUserId then .claimReturned args (.refused .forbidden)
    else if secretMatches env args.creatorSecret row.creatorSecretHash = false then
      .claimReturned args (.refused .badSecret)
    else
      match row.state with
      | .claimed => .claimReturned args (.claimed none)
      | .waiting => .claimReturned args (if row.expiresAt ≤ now then .expired else .waiting)
      | .sealed => .clearing args row

def isSealed (sessionId : String) (r : PairSession) : Bool :=
  r.id = sessionId ∧ r.state = .sealed

def PairSession.claim (r : PairSession) : PairSession :=
  { r with state := .claimed, sealedPayload := none }

/-- The next statement of a call. -/
def callStep (env : Env) (now : Timestamp) (sessions : List PairSession) :
    Call → Option (List PairSession × Call)
  | .sweeping c =>
    some (deleteMany (fun r => r.expiresAt < now - pairSweepGraceMs) sessions, .creating c)
  | .creating c =>
    match create (c.row env) sessions with
    | .ok after => some (after, .created c)
    | .error _ => some (sessions, .createFailed)
  | .sealing args clock =>
    some (mapWhere (takesDeposit args clock) (PairSession.seal args.payload) sessions,
      if (findMany (takesDeposit args clock) sessions).length = 1 then .sealReturned args .ok
      else .explaining args clock)
  | .explaining args clock =>
    let row := sessions.find? fun r => r.id = args.sessionId
    some (sessions, .sealReturned args (.refused (explainSeal args clock row)))
  | .claiming args =>
    some (sessions, readClaim env now args (sessions.find? fun r => r.id = args.sessionId))
  | .clearing args row =>
    some (mapWhere (isSealed args.sessionId) PairSession.claim sessions,
      -- Only the statement that cleared the row returns what was read of it.
      if (findMany (isSealed args.sessionId) sessions).length = 1 then
        .claimReturned args (.claimed row.sealedPayload)
      else .claimReturned args (.claimed none))
  | .created _ | .createFailed | .sealReturned _ _ | .claimReturned _ _ => none

structure State where
  sessions : List PairSession := []
  calls : List Call := []
  deriving DecidableEq, Repr

inductive Action
  | createPairSession (userId : UserId) (sessionId creatorSecret : String) (now : Timestamp)
  | sealPairSession (args : SealArgs) (now : Timestamp)
  | claimPairSession (args : ClaimArgs)
  /-- A call takes its next step. -/
  | advance (i : Nat) (now : Timestamp)
  /-- The sweep of a call throws, which the call ignores. -/
  | sweepFails (i : Nat)
  deriving DecidableEq, Repr

def State.setCall (s : State) (i : Nat) (c : Call) (sessions : List PairSession) : State where
  sessions := sessions
  calls := s.calls.set i c

def State.addCall (s : State) (c : Call) : State := { s with calls := s.calls ++ [c] }

def step (env : Env) (s : State) : Action → Option State
  | .createPairSession userId sessionId creatorSecret now =>
    if sessionId ∈ s.calls.filterMap Call.drawn? then none
    else some (s.addCall (.sweeping ⟨userId, sessionId, creatorSecret, now + pairTtlMs⟩))
  | .sealPairSession args now => some (s.addCall (.sealing args now))
  | .claimPairSession args => some (s.addCall (.claiming args))
  | .advance i now => do
    let c ← s.calls[i]?
    let (sessions, c') ← callStep env now s.sessions c
    return s.setCall i c' sessions
  | .sweepFails i =>
    match s.calls[i]? with
    | some (.sweeping c) => some (s.setCall i (.creating c) s.sessions)
    | _ => none

/-! ### What the relay promises -/

/-- The step deposits the payload in the session, by a call authenticated as the user, while
the session waits and, by the clock of that call, has not expired. -/
def Deposits (sessionId : String) (userId : UserId) (payload : String) (s : State) (a : Action) :
    Prop :=
  ∃ i now clock, a = .advance i now ∧
    s.calls[i]? = some (.sealing ⟨sessionId, userId, payload⟩ clock) ∧
    ∃ row ∈ s.sessions, row.id = sessionId ∧ row.userId = userId ∧ row.state = .waiting ∧
      clock < row.expiresAt

/-- The user opened the session and got this secret for it. -/
def Opened (s : State) (sessionId : String) (userId : UserId) (creatorSecret : String) : Prop :=
  ∃ (j : Nat) (expiresAt : Timestamp),
    s.calls[j]? = some (.created ⟨userId, sessionId, creatorSecret, expiresAt⟩)

/-- The call has returned the payload. -/
def Returned (s : State) (i : Nat) (args : ClaimArgs) (payload : String) : Prop :=
  s.calls[i]? = some (.claimReturned args (.claimed (some payload)))

/-- The moves of the `state` column. -/
inductive Forward : SessionState → SessionState → Prop
  | stay (x : SessionState) : Forward x x
  | sealed : Forward .waiting .sealed
  | claimed : Forward .sealed .claimed

structure HandsOff (env : Env) (as : List Action) (s : State) : Prop where
  /-- A session's payload is returned by at most one call. -/
  once : ∀ i j args args' payload payload', Returned s i args payload →
    Returned s j args' payload' → args.sessionId = args'.sessionId → i = j
  /-- Whoever gets a payload is authenticated as the session's user and has its secret. -/
  creator : ∀ i args payload, Returned s i args payload →
    Opened s args.sessionId args.sessionUserId args.creatorSecret
  /-- It is the payload that the same user deposited. -/
  deposited : ∀ i args payload, Returned s i args payload →
    Happens (step env) (Deposits args.sessionId args.sessionUserId payload) {} as
  /-- Every step moves stored sessions forward, and new sessions wait. -/
  forward : ∀ bs a s₁ s₂, bs ++ [a] <+: as → run (step env) {} bs = some s₁ →
    step env s₁ a = some s₂ → ∀ y ∈ s₂.sessions,
      (∃ x ∈ s₁.sessions, x.id = y.id ∧ Forward x.state y.state) ∨
        (∀ x ∈ s₁.sessions, x.id ≠ y.id) ∧ y.state = .waiting

/-! ### What a step can do -/

/-- What a step can do to the sessions and the calls. -/
inductive Effect (env : Env) (s : State) (a : Action) : State → Prop
  | opening (c : Creation) (hfresh : c.sessionId ∉ s.calls.filterMap Call.drawn?) :
      Effect env s a (s.addCall (.sweeping c))
  | sealing (args : SealArgs) (clock : Timestamp) : Effect env s a (s.addCall (.sealing args clock))
  | claiming (args : ClaimArgs) : Effect env s a (s.addCall (.claiming args))
  | sweep (i : Nat) (c : Creation) (hcall : s.calls[i]? = some (.sweeping c))
      (p : PairSession → Bool) :
      Effect env s a (s.setCall i (.creating c) (deleteMany p s.sessions))
  | insert (i : Nat) (c : Creation) (hcall : s.calls[i]? = some (.creating c))
      (hcons : Consistent (s.sessions ++ [c.row env])) :
      Effect env s a (s.setCall i (.created c) (s.sessions ++ [c.row env]))
  | insertFails (i : Nat) (c : Creation) (hcall : s.calls[i]? = some (.creating c)) :
      Effect env s a (s.setCall i .createFailed s.sessions)
  | deposit (i : Nat) (now : Timestamp) (haction : a = .advance i now) (args : SealArgs)
      (clock : Timestamp) (hcall : s.calls[i]? = some (.sealing args clock)) (c : Call)
      (hc : c = .sealReturned args .ok ∨ c = .explaining args clock) :
      Effect env s a (s.setCall i c
        (mapWhere (takesDeposit args clock) (PairSession.seal args.payload) s.sessions))
  | explain (i : Nat) (args : SealArgs) (clock : Timestamp)
      (hcall : s.calls[i]? = some (.explaining args clock)) (result : SealPairResult) :
      Effect env s a (s.setCall i (.sealReturned args result) s.sessions)
  | read (i : Nat) (args : ClaimArgs) (hcall : s.calls[i]? = some (.claiming args))
      (now : Timestamp) :
      Effect env s a (s.setCall i
        (readClaim env now args (s.sessions.find? fun r => r.id = args.sessionId)) s.sessions)
  | clear (i : Nat) (now : Timestamp) (haction : a = .advance i now) (args : ClaimArgs)
      (row : PairSession) (hcall : s.calls[i]? = some (.clearing args row)) :
      Effect env s a (s.setCall i
        (if (findMany (isSealed args.sessionId) s.sessions).length = 1 then
          .claimReturned args (.claimed row.sealedPayload)
        else .claimReturned args (.claimed none))
        (mapWhere (isSealed args.sessionId) PairSession.claim s.sessions))

section Steps

variable {env : Env} {s s' : State} {a : Action} {sessions : List PairSession} {now : Timestamp}
  {args : ClaimArgs} {c c' d : Call} {i j : Nat}

theorem effect_of_callStep (haction : a = .advance i now) (hcall : s.calls[i]? = some c)
    (h : callStep env now s.sessions c = some (sessions, c')) :
    Effect env s a (s.setCall i c' sessions) := by
  cases c with
  | sweeping c =>
    cases h
    exact .sweep i c hcall _
  | creating c =>
    simp only [callStep] at h
    split at h
    · rename_i after hcreate
      cases h
      obtain ⟨hcons, rfl⟩ := create_eq_ok_iff.mp hcreate
      exact .insert i c hcall hcons
    · cases h
      exact .insertFails i c hcall
  | sealing args clock =>
    cases h
    refine .deposit i now haction args clock hcall _ ?_
    split_ifs
    · exact .inl rfl
    · exact .inr rfl
  | explaining args clock =>
    cases h
    exact .explain i args clock hcall _
  | claiming args =>
    cases h
    exact .read i args hcall now
  | clearing args row =>
    cases h
    exact .clear i now haction args row hcall
  | created | createFailed | sealReturned | claimReturned => cases h

theorem effect_of_step (h : step env s a = some s') : Effect env s a s' := by
  cases a with
  | createPairSession userId sessionId creatorSecret now =>
    simp only [step] at h
    split_ifs at h with hfresh
    cases h
    exact .opening _ hfresh
  | sealPairSession args now =>
    cases h
    exact .sealing args now
  | claimPairSession args =>
    cases h
    exact .claiming args
  | advance i now =>
    obtain ⟨c, hcall, hrest⟩ := Option.bind_eq_some_iff.mp h
    obtain ⟨⟨sessions, c'⟩, hstep, hend⟩ := Option.bind_eq_some_iff.mp hrest
    cases hend
    exact effect_of_callStep rfl hcall hstep
  | sweepFails i =>
    simp only [step] at h
    split at h <;> cases h
    rename_i c hcall
    -- A sweep that deletes nothing.
    have hnone : deleteMany (fun _ : PairSession => false) s.sessions = s.sessions := by
      simp [deleteMany]
    exact hnone ▸ .sweep i c hcall fun _ => false

/-! ### Where sessions and calls come from -/

/-- What a session of the next state was before. -/
inductive RowFrom (env : Env) (s : State) (a : Action) (s' : State) (y : PairSession) : Prop
  | kept (hy : y ∈ s.sessions)
  | sealed (x : PairSession) (hx : x ∈ s.sessions) (hstate : x.state = .waiting) (payload : String)
      (hdeposit : Deposits x.id x.userId payload s a) (hy : y = x.seal payload)
  | claimed (x : PairSession) (hx : x ∈ s.sessions) (hstate : x.state = .sealed)
      (hy : y = x.claim)
  | new (i : Nat) (c : Creation) (hbefore : s.calls[i]? = some (.creating c))
      (hafter : s'.calls[i]? = some (.created c)) (hy : y = c.row env)
      (hunused : ∀ x ∈ s.sessions, x.id ≠ y.id)

theorem getElem?_setCall (hcall : s.calls[i]? = some c) :
    (s.setCall i c' sessions).calls[i]? = some c' :=
  List.getElem?_set_self (List.getElem?_eq_some_iff.mp hcall).1

theorem rowFrom_of_effect (h : Effect env s a s') {y : PairSession} (hy : y ∈ s'.sessions) :
    RowFrom env s a s' y := by
  cases h with
  | opening | sealing | claiming | insertFails | explain | read => exact .kept hy
  | sweep i c hcall p => exact .kept (mem_deleteMany.mp hy).1
  | insert i c hcall hcons =>
    rcases List.mem_append.mp hy with hold | hnew
    · exact .kept hold
    · obtain rfl := List.mem_singleton.mp hnew
      refine .new i c hcall (getElem?_setCall hcall) rfl ?_
      intro x hx hid
      have hclash := (consistent_append_singleton.mp hcons).2 x hx
      simp [clash, hid] at hclash
  | deposit i now haction args clock hcall c hc =>
    obtain ⟨x, hx, rfl⟩ := mem_mapWhere.mp hy
    split_ifs with htakes
    · obtain ⟨hid, huser, hstate, hclock⟩ := of_decide_eq_true htakes
      refine .sealed x hx hstate args.payload ?_ rfl
      refine ⟨i, now, clock, haction, ?_, x, hx, rfl, rfl, hstate, hclock⟩
      rw [hid, huser]
      exact hcall
    · exact .kept hx
  | clear i now haction args row hcall =>
    obtain ⟨x, hx, rfl⟩ := mem_mapWhere.mp hy
    by_cases hsealed : isSealed args.sessionId x = true
    · rw [if_pos hsealed]
      exact .claimed x hx (of_decide_eq_true hsealed).2 rfl
    · rw [if_neg hsealed]
      exact .kept hx

/-- What a call of the next state, at its place, has just done. -/
inductive CallFrom (env : Env) (s : State) (a : Action) (s' : State) (j : Nat) : Call → Prop
  | kept {c : Call} (hcall : s.calls[j]? = some c) : CallFrom env s a s' j c
  /-- It has not got hold of a payload. -/
  | idle {c : Call} (hnone : c.holds? = none) : CallFrom env s a s' j c
  | read (args : ClaimArgs) (row : PairSession) (hrow : row ∈ s.sessions)
      (hid : row.id = args.sessionId) (huser : row.userId = args.sessionUserId)
      (hsecret : hashSecret env args.creatorSecret = row.creatorSecretHash)
      (hstate : row.state = .sealed) : CallFrom env s a s' j (.clearing args row)
  | returned (args : ClaimArgs) (row : PairSession)
      (hcall : s.calls[j]? = some (.clearing args row))
      (now : Timestamp) (haction : a = .advance j now)
      (hone : (findMany (isSealed args.sessionId) s.sessions).length = 1)
      (hsessions : s'.sessions =
        mapWhere (isSealed args.sessionId) PairSession.claim s.sessions) :
      CallFrom env s a s' j (.claimReturned args (.claimed row.sealedPayload))

theorem callFrom_readClaim :
    CallFrom env s a s' j
      (readClaim env now args (s.sessions.find? fun r => r.id = args.sessionId)) := by
  unfold readClaim
  split
  · exact .idle rfl
  · rename_i row hfind
    have hmem := List.mem_of_find?_eq_some hfind
    have hid := List.find?_some hfind
    by_cases huser : row.userId = args.sessionUserId
    · rw [if_neg (not_not.mpr huser)]
      by_cases hsecret : secretMatches env args.creatorSecret row.creatorSecretHash = true
      · rw [if_neg (by simp [hsecret])]
        cases hstate : row.state with
        | claimed => exact .idle rfl
        | waiting => exact .idle (by dsimp only; split_ifs <;> rfl)
        | sealed =>
          exact .read args row hmem (of_decide_eq_true hid) huser (of_decide_eq_true hsecret) hstate
      · rw [if_pos (Bool.not_eq_true _ ▸ hsecret)]
        exact .idle rfl
    · rw [if_pos huser]
      exact .idle rfl

/-- A call that was added or moved, or one that was there. -/
theorem callFrom_addCall (hnew : CallFrom env s a s' j d) (hc : (s.addCall d).calls[j]? = some c) :
    CallFrom env s a s' j c := by
  unfold State.addCall at hc
  rw [List.getElem?_append] at hc
  split_ifs at hc
  · exact .kept hc
  · rw [List.getElem?_singleton] at hc
    split_ifs at hc
    cases hc
    exact hnew

theorem callFrom_setCall (hnew : i = j → CallFrom env s a s' j d)
    (hc : (s.setCall i d sessions).calls[j]? = some c) : CallFrom env s a s' j c := by
  unfold State.setCall at hc
  rw [List.getElem?_set] at hc
  split_ifs at hc with hij hlt
  · cases hc
    exact hnew hij
  · exact .kept hc

theorem callFrom_of_effect (h : Effect env s a s') (hc : s'.calls[j]? = some c) :
    CallFrom env s a s' j c := by
  cases h with
  | opening | sealing | claiming => exact callFrom_addCall (.idle rfl) hc
  | sweep | insert | insertFails | explain => exact callFrom_setCall (fun _ => .idle rfl) hc
  | deposit i now haction args clock hcall d hd =>
    refine callFrom_setCall (fun _ => ?_) hc
    rcases hd with rfl | rfl
    · exact .idle rfl
    · exact .idle rfl
  | read i args hcall now => exact callFrom_setCall (fun _ => callFrom_readClaim) hc
  | clear i now haction args row hcall =>
    refine callFrom_setCall ?_ hc
    rintro rfl
    split_ifs with hone
    · exact .returned args row hcall now haction hone rfl
    · exact .idle rfl

/-- A session that was opened stays so. -/
theorem created_of_effect (h : Effect env s a s') {c : Creation}
    (hc : s.calls[j]? = some (.created c)) : s'.calls[j]? = some (.created c) := by
  have hlt := (List.getElem?_eq_some_iff.mp hc).1
  -- The call that moves has another shape.
  have hmove {i : Nat} {d d' : Call} {sessions : List PairSession} (hcall : s.calls[i]? = some d)
      (hne : d ≠ .created c) : (s.setCall i d' sessions).calls[j]? = some (.created c) := by
    have hij : i ≠ j := by
      rintro rfl
      exact hne (Option.some.inj (hcall.symm.trans hc))
    exact (List.getElem?_set_ne hij).trans hc
  cases h with
  | opening | sealing | claiming => exact (List.getElem?_append_left hlt).trans hc
  | sweep _ _ hcall | insert _ _ hcall | insertFails _ _ hcall | deposit _ _ _ _ _ hcall
  | explain _ _ _ hcall | read _ _ hcall | clear _ _ _ _ _ hcall => exact hmove hcall (by rintro ⟨⟩)

theorem drawn?_readClaim {row : Option PairSession} :
    (readClaim env now args row).drawn? = none := by
  unfold readClaim
  split
  · rfl
  · split_ifs <;> first | rfl | split <;> rfl

/-- Session ids are drawn once. -/
theorem drawnOnce_of_effect (h : Effect env s a s')
    (honce : (s.calls.filterMap Call.drawn?).Nodup) :
    (s'.calls.filterMap Call.drawn?).Nodup := by
  have hmove {i : Nat} {d d' : Call} {sessions : List PairSession} (hcall : s.calls[i]? = some d)
      (hd' : d'.drawn? = d.drawn? ∨ d'.drawn? = none) :
      ((s.setCall i d' sessions).calls.filterMap Call.drawn?).Nodup :=
    honce.sublist (filterMap_set_sublist hcall hd')
  have hadd {d : Call} (hd : d.drawn? = none) :
      ((s.addCall d).calls.filterMap Call.drawn?).Nodup := by
    simpa [State.addCall, List.filterMap_append, List.filterMap_cons_none hd] using honce
  cases h with
  | opening c hfresh =>
    have hshape : (s.addCall (.sweeping c)).calls.filterMap Call.drawn? =
        s.calls.filterMap Call.drawn? ++ [c.sessionId] := by
      simp [State.addCall, Call.drawn?]
    rw [hshape]
    exact List.nodup_append.mpr ⟨honce, List.nodup_singleton _, by
      rintro x hx y hy rfl
      exact hfresh (List.mem_singleton.mp hy ▸ hx)⟩
  | sealing | claiming => exact hadd rfl
  | sweep _ _ hcall | insert _ _ hcall => exact hmove hcall (.inl rfl)
  | insertFails _ _ hcall | explain _ _ _ hcall => exact hmove hcall (.inr rfl)
  | deposit i now haction args clock hcall c hc =>
    exact hmove hcall (.inr (by rcases hc with rfl | rfl <;> rfl))
  | read i args hcall => exact hmove hcall (.inr drawn?_readClaim)
  | clear i now haction args row hcall => exact hmove hcall (.inr (by split_ifs <;> rfl))

theorem consistent_of_effect (h : Effect env s a s') (hcons : Consistent s.sessions) :
    Consistent s'.sessions := by
  cases h with
  | opening | sealing | claiming | insertFails | explain | read => exact hcons
  | sweep => exact hcons.deleteMany
  | insert i c hcall hnew => exact hnew
  | deposit | clear => exact hcons.mapWhere_of_clash _ fun _ _ => rfl

end Steps

/-! ### Runs -/

/-- The call is the creator's, and the payload is one the same user deposited. -/
structure Entitled (env : Env) (as : List Action) (s : State) (args : ClaimArgs)
    (payload : String) : Prop where
  opened : Opened s args.sessionId args.sessionUserId args.creatorSecret
  deposited : Happens (step env) (Deposits args.sessionId args.sessionUserId payload) {} as

structure Inv (env : Env) (as : List Action) (s : State) : Prop where
  sessions : Consistent s.sessions
  drawnOnce : (s.calls.filterMap Call.drawn?).Nodup
  opened : ∀ x ∈ s.sessions, ∃ (j : Nat) (c : Creation), s.calls[j]? = some (.created c) ∧
    c.sessionId = x.id ∧ c.userId = x.userId ∧
      hashSecret env c.creatorSecret = x.creatorSecretHash
  sealed : ∀ x ∈ s.sessions, x.state = .sealed → ∀ payload, x.sealedPayload = some payload →
    Happens (step env) (Deposits x.id x.userId payload) {} as
  entitled : ∀ (j : Nat) (c : Call) (args : ClaimArgs) (payload : String), s.calls[j]? = some c →
    c.holds? = some (args, payload) → Entitled env as s args payload
  /-- A session whose payload was returned has nothing left. -/
  spent : ∀ i args payload, Returned s i args payload →
    ∀ x ∈ s.sessions, x.id = args.sessionId → x.state = .claimed
  once : ∀ i j args args' payload payload', Returned s i args payload →
    Returned s j args' payload' → args.sessionId = args'.sessionId → i = j

section Runs

variable {env : Env} {as : List Action} {s s' : State} {a : Action} {args : ClaimArgs}
  {payload : String} {i : Nat}

theorem inv_init : Inv env [] {} where
  sessions := .nil
  drawnOnce := List.nodup_nil
  opened := by simp
  sealed := by simp
  entitled := by simp
  spent := by simp [Returned]
  once := by simp [Returned]

theorem Entitled.mono (h : Entitled env as s args payload) (heffect : Effect env s a s') :
    Entitled env (as ++ [a]) s' args payload where
  opened := by
    obtain ⟨j, expiresAt, hj⟩ := h.opened
    exact ⟨j, expiresAt, created_of_effect heffect hj⟩
  deposited := h.deposited.append

/-- The secret a call presents is the one that was drawn, since hashes do not collide. -/
theorem Inv.opened_of_row (hinv : Inv env as s) (hinj : Function.Injective env.sha256)
    {row : PairSession} (hrow : row ∈ s.sessions) (hid : row.id = args.sessionId)
    (huser : row.userId = args.sessionUserId)
    (hsecret : hashSecret env args.creatorSecret = row.creatorSecretHash) :
    Opened s args.sessionId args.sessionUserId args.creatorSecret := by
  obtain ⟨j, ⟨userId, sessionId, creatorSecret, expiresAt⟩, hj, hcid, hcuser, hchash⟩ :=
    hinv.opened row hrow
  obtain rfl : sessionId = args.sessionId := hcid.trans hid
  obtain rfl : userId = args.sessionUserId := hcuser.trans huser
  obtain rfl : creatorSecret = args.creatorSecret := hinj (hchash.trans hsecret.symm)
  exact ⟨j, expiresAt, hj⟩

theorem Inv.opened_step (hinv : Inv env as s) (h : Effect env s a s') :
    ∀ y ∈ s'.sessions, ∃ (j : Nat) (c : Creation), s'.calls[j]? = some (.created c) ∧
      c.sessionId = y.id ∧ c.userId = y.userId ∧
        hashSecret env c.creatorSecret = y.creatorSecretHash := by
  have hold : ∀ x ∈ s.sessions, ∃ (j : Nat) (c : Creation), s'.calls[j]? = some (.created c) ∧
      c.sessionId = x.id ∧ c.userId = x.userId ∧
        hashSecret env c.creatorSecret = x.creatorSecretHash := by
    intro x hx
    obtain ⟨j, c, hj, hrest⟩ := hinv.opened x hx
    exact ⟨j, c, created_of_effect h hj, hrest⟩
  intro y hy
  cases rowFrom_of_effect h hy with
  | kept hy => exact hold y hy
  | sealed x hx _ _ _ heq | claimed x hx _ heq =>
    rw [heq]
    exact hold x hx
  | new i c hbefore hafter heq hunused =>
    rw [heq]
    exact ⟨i, c, hafter, rfl, rfl, rfl⟩

theorem Inv.sealed_step (hinv : Inv env as s) (hrun : run (step env) {} as = some s)
    (h : Effect env s a s') : ∀ y ∈ s'.sessions, y.state = .sealed →
      ∀ payload, y.sealedPayload = some payload →
        Happens (step env) (Deposits y.id y.userId payload) {} (as ++ [a]) := by
  intro y hy hstate payload hpayload
  cases rowFrom_of_effect h hy with
  | kept hy => exact (hinv.sealed y hy hstate payload hpayload).append
  | sealed x hx hwaiting deposited hdeposit heq =>
    -- This is the step that deposits it.
    rw [heq] at hpayload ⊢
    cases hpayload
    exact .last hrun hdeposit
  | claimed _ _ _ heq | new _ _ _ _ heq =>
    rw [heq] at hstate
    cases hstate

theorem Inv.entitled_step (hinv : Inv env as s) (hinj : Function.Injective env.sha256)
    (h : Effect env s a s') : ∀ (j : Nat) (c : Call) (args : ClaimArgs) (payload : String),
      s'.calls[j]? = some c → c.holds? = some (args, payload) →
        Entitled env (as ++ [a]) s' args payload := by
  intro j c args payload hc hholds
  cases callFrom_of_effect h hc with
  | kept hcall => exact (hinv.entitled j c args payload hcall hholds).mono h
  | idle hnone =>
    rw [hnone] at hholds
    cases hholds
  | read args' row hrow hid huser hsecret hstate =>
    obtain ⟨p, hp, heq⟩ := Option.map_eq_some_iff.mp hholds
    obtain ⟨rfl, rfl⟩ := Prod.mk.inj heq
    have hdeposit := hinv.sealed row hrow hstate p hp
    rw [hid, huser] at hdeposit
    have hent : Entitled env as s args' p :=
      ⟨hinv.opened_of_row hinj hrow hid huser hsecret, hdeposit⟩
    exact hent.mono h
  | returned args' row hcall now haction hone hsessions =>
    exact (hinv.entitled j _ args payload hcall hholds).mono h

/-- The session whose payload is about to be returned is sealed. -/
theorem exists_sealed {sessionId : String}
    (hone : (findMany (isSealed sessionId) s.sessions).length = 1) :
    ∃ x ∈ s.sessions, x.id = sessionId ∧ x.state = .sealed := by
  obtain ⟨x, hx⟩ := List.length_eq_one_iff.mp hone
  obtain ⟨hmem, hsealed⟩ := mem_findMany.mp (hx ▸ List.mem_singleton_self x)
  exact ⟨x, hmem, of_decide_eq_true hsealed⟩

/-- A session that was opened is not opened again. -/
theorem Inv.not_creating (hinv : Inv env as s) {c : Creation}
    (hopened : Opened s args.sessionId args.sessionUserId args.creatorSecret)
    (hcreating : s.calls[i]? = some (.creating c)) : c.sessionId ≠ args.sessionId := by
  intro hid
  obtain ⟨j, expiresAt, hj⟩ := hopened
  obtain rfl := eq_of_nodup_filterMap hinv.drawnOnce hcreating hj rfl (congrArg some hid.symm)
  cases hcreating.symm.trans hj

/-- A payload was returned before, or it is returned now and the session is cleared. -/
theorem returned_of_effect (h : Effect env s a s') (hret : Returned s' i args payload) :
    Returned s i args payload ∨ ∃ now, a = .advance i now ∧
      (findMany (isSealed args.sessionId) s.sessions).length = 1 ∧
      s'.sessions = mapWhere (isSealed args.sessionId) PairSession.claim s.sessions := by
  obtain ⟨c, hc, heq⟩ : ∃ c, s'.calls[i]? = some c ∧
      Call.claimReturned args (.claimed (some payload)) = c := ⟨_, hret, rfl⟩
  cases callFrom_of_effect h hc with
  | kept hcall =>
    rw [← heq] at hcall
    exact .inl hcall
  | idle hnone =>
    rw [← heq] at hnone
    cases hnone
  | read args' row => cases heq
  | returned args' row hcall now haction hone hsessions =>
    obtain ⟨rfl, -⟩ := Call.claimReturned.inj heq
    exact .inr ⟨now, haction, hone, hsessions⟩

theorem Returned.entitled (hinv : Inv env as s) (hret : Returned s i args payload) :
    Entitled env as s args payload :=
  hinv.entitled i _ args payload hret rfl

theorem Inv.spent_step (hinv : Inv env as s) (h : Effect env s a s') :
    ∀ i args payload, Returned s' i args payload →
      ∀ y ∈ s'.sessions, y.id = args.sessionId → y.state = .claimed := by
  intro i args payload hret y hy hid
  rcases returned_of_effect h hret with hold | ⟨now, -, hone, hsessions⟩
  · have hspent := hinv.spent i args payload hold
    cases rowFrom_of_effect h hy with
    | kept hy => exact hspent y hy hid
    | sealed x hx hstate p hdeposit heq =>
      rw [heq] at hid
      cases hstate.symm.trans (hspent x hx hid)
    | claimed x hx hstate heq =>
      rw [heq]
      rfl
    | new j c hbefore hafter heq hunused =>
      rw [heq] at hid
      exact absurd hid (hinv.not_creating (hold.entitled hinv).opened hbefore)
  · -- The row with this id is the sealed one, and it has just been cleared.
    obtain ⟨x₀, hx₀, hid₀, hsealed₀⟩ := exists_sealed hone
    rw [hsessions] at hy
    obtain ⟨x, hx, rfl⟩ := mem_mapWhere.mp hy
    split_ifs at hid ⊢ with hsealed
    · rfl
    · obtain rfl : x = x₀ := hinv.sessions.eq_of_clash hx hx₀ (by simp [clash, hid, hid₀])
      exact absurd (decide_eq_true ⟨hid, hsealed₀⟩) hsealed

theorem Inv.once_step (hinv : Inv env as s) (h : Effect env s a s') :
    ∀ i j args args' payload payload', Returned s' i args payload →
      Returned s' j args' payload' → args.sessionId = args'.sessionId → i = j := by
  intro i j args args' payload payload' hi hj hsame
  -- A session is not sealed any more once its payload was returned.
  have hnot {k : Nat} {b : ClaimArgs} {p : String} (hret : Returned s k b p)
      (hone : (findMany (isSealed b.sessionId) s.sessions).length = 1) : False := by
    obtain ⟨x, hx, hid, hsealed⟩ := exists_sealed hone
    cases hsealed.symm.trans (hinv.spent k b p hret x hx hid)
  rcases returned_of_effect h hi with hi | ⟨now, hai, honei, -⟩
  · rcases returned_of_effect h hj with hj | ⟨now', -, honej, -⟩
    · exact hinv.once i j args args' payload payload' hi hj hsame
    · exact (hnot hi (hsame ▸ honej)).elim
  · rcases returned_of_effect h hj with hj | ⟨now', haj, -, -⟩
    · exact (hnot hj (hsame ▸ honei)).elim
    · exact (Action.advance.inj (hai.symm.trans haj)).1

/-- The step lemma. -/
theorem Inv.step (hinj : Function.Injective env.sha256) (hinv : Inv env as s)
    (hrun : run (step env) {} as = some s) (h : step env s a = some s') :
    Inv env (as ++ [a]) s' where
  sessions := consistent_of_effect (effect_of_step h) hinv.sessions
  drawnOnce := drawnOnce_of_effect (effect_of_step h) hinv.drawnOnce
  opened := hinv.opened_step (effect_of_step h)
  sealed := hinv.sealed_step hrun (effect_of_step h)
  entitled := hinv.entitled_step hinj (effect_of_step h)
  spent := hinv.spent_step (effect_of_step h)
  once := hinv.once_step (effect_of_step h)

/-- Stored sessions move forward. -/
theorem forward_of_step (h : Pairing.step env s a = some s') {y : PairSession}
    (hy : y ∈ s'.sessions) :
    (∃ x ∈ s.sessions, x.id = y.id ∧ Forward x.state y.state) ∨
      (∀ x ∈ s.sessions, x.id ≠ y.id) ∧ y.state = .waiting := by
  cases rowFrom_of_effect (effect_of_step h) hy with
  | kept hy => exact .inl ⟨y, hy, rfl, .stay y.state⟩
  | sealed x hx hstate payload hdeposit heq =>
    rw [heq]
    exact .inl ⟨x, hx, rfl, hstate ▸ .sealed⟩
  | claimed x hx hstate heq =>
    rw [heq]
    exact .inl ⟨x, hx, rfl, hstate ▸ .claimed⟩
  | new i c hbefore hafter heq hunused => exact .inr ⟨hunused, heq ▸ rfl⟩

/-- However the calls of any users interleave, a session's payload is what its user deposited
while it waited, it goes to at most one call, and that call is the creator's. -/
theorem handsOff_of_run (hinj : Function.Injective env.sha256)
    (hrun : run (Pairing.step env) {} as = some s) : HandsOff env as s := by
  have hinv : Inv env as s := by
    apply run_invariant_history (Inv env) inv_init _ hrun
    intro as s a s' hrun hinv h
    exact hinv.step hinj hrun h
  exact
    { once := hinv.once
      creator := fun i args payload hret => (hret.entitled hinv).opened
      deposited := fun i args payload hret => (hret.entitled hinv).deposited
      forward := fun _ _ _ _ _ _ hstep _ hy => forward_of_step hstep hy }

end Runs

/-- The hash keeps its argument. -/
def plainEnv : Env where
  sha256 := id

/-- A root is handed over. Two calls of the creator read the sealed row; one clears it. -/
def handOver : List Action :=
  [.createPairSession "A" "s1" "secret" 0, .advance 0 0, .advance 0 0,
    .sealPairSession ⟨"s1", "A", "root"⟩ 1000, .advance 1 1000,
    .claimPairSession ⟨"s1", "A", "secret"⟩, .claimPairSession ⟨"s1", "A", "secret"⟩,
    .advance 2 2000, .advance 3 2000, .advance 3 2000, .advance 2 2000]

/-- The state it leads to. -/
def handedOver : State where
  sessions := [{ id := "s1", userId := "A", state := .claimed, creatorSecretHash := "secret",
                 expiresAt := pairTtlMs }]
  calls := [.created ⟨"A", "s1", "secret", pairTtlMs⟩, .sealReturned ⟨"s1", "A", "root"⟩ .ok,
    .claimReturned ⟨"s1", "A", "secret"⟩ (.claimed none),
    .claimReturned ⟨"s1", "A", "secret"⟩ (.claimed (some "root"))]

theorem handOver_handsOff : run (step plainEnv) {} handOver = some handedOver ∧
    Returned handedOver 3 ⟨"s1", "A", "secret"⟩ "root" ∧
      HandsOff plainEnv handOver handedOver := by
  have hrun : run (step plainEnv) {} handOver = some handedOver := by decide +kernel
  exact ⟨hrun, rfl, handsOff_of_run Function.injective_id hrun⟩

end Minister.Pairing

import Minister.Schema

/-!
# Allocating and revoking status entries

`allocateStatusEntry` and `revokeStatusAnchor` of `lib/status-list`, run side by side.
Each statement is one step. An allocation runs outside of transactions, so each of its
statements commits by itself. A revocation is given the transaction of its caller, or
none: with one, what it writes is kept by the call until the transaction commits, and
a transaction may be rolled back at any time before that; without one, its statements
commit by themselves.

Reads see what is committed. (A revocation reads nothing that it has written.) The
unique index on the anchor makes a second upsert wait for the transaction of the first,
and a row written by an open transaction is locked.

Ids come from `cuid()`: no row gets the id of another. A statement that fails because
the database is out of reach is left out.
-/

namespace Minister.StatusLists

open Relational

/-! ### Tables -/

/-- A shard of a client's list. -/
structure StatusList where
  id : String
  clientId : String
  shardNo : Nat
  deriving DecidableEq, Repr

/-- The revocation handle of a fact at a client. -/
structure BadgeStatusEntry where
  id : String
  statusAnchor : String
  clientId : String
  listId : String
  bitIndex : Nat
  revokedAt : Option Nat
  revealAfter : Option Nat
  deriving DecidableEq, Repr

/-- The tombstone of a fact. -/
structure StatusAnchorRevocation where
  statusAnchor : String
  revokedAt : Nat
  reason : String
  deriving DecidableEq, Repr

instance : Constrained StatusList where
  clash a b := a.id == b.id || (a.clientId == b.clientId && a.shardNo == b.shardNo)

instance : Constrained BadgeStatusEntry where
  clash a b := a.id == b.id || (a.statusAnchor == b.statusAnchor && a.clientId == b.clientId) ||
    (a.listId == b.listId && a.bitIndex == b.bitIndex)

instance : Constrained StatusAnchorRevocation where
  clash a b := a.statusAnchor == b.statusAnchor

/-- `SHARD_SIZE_BITS`. -/
def shardSizeBits : Nat := 8192

/-- `MAX_RANDOM_ATTEMPTS`. -/
def maxRandomAttempts : Nat := 24

/-- `JITTER_MAX_MS`. -/
def jitterMaxMs : Nat := 4 * 60000

/-- `count >= SHARD_FILL_THRESHOLD * SHARD_SIZE_BITS`, the threshold being three quarters. -/
def pastFillThreshold (count : Nat) : Bool := 3 * shardSizeBits ≤ 4 * count

/-! ### Calls -/

/-- What an allocation is for, and what its first read of the tombstone returned. -/
structure Allocation where
  statusAnchor : String
  clientId : String
  revokedAt : Option Nat
  deriving DecidableEq, Repr

structure AllocatedStatus where
  listId : String
  bitIndex : Nat
  deriving DecidableEq, Repr

structure ShardRow where
  id : String
  shardNo : Nat
  deriving DecidableEq, Repr

/-- The arguments of `revokeStatusAnchor`, with the time of the call. -/
structure Revocation where
  anchor : String
  reason : String
  nowMs : Nat
  /-- The caller passed its transaction. -/
  inTransaction : Bool
  deriving DecidableEq, Repr

/-- What an open transaction has written: a tombstone, and for entries their
`revealAfter`. -/
structure Writes where
  tombstone : Option StatusAnchorRevocation := none
  revealAfter : List (String × Nat) := []
  deriving DecidableEq, Repr

/-- Where a call stands. -/
inductive Call
  | readingAnchor (statusAnchor clientId : String)
  | findingExisting (a : Allocation)
  /-- `currentWritableShard`. -/
  | findingShard (a : Allocation)
  | countingEntries (a : Allocation) (top : ShardRow)
  /-- `getOrCreateShard`; `rolled` if it is for the second round of attempts. -/
  | creatingShard (a : Allocation) (shardNo : Nat) (rolled : Bool)
  | rereadingShard (a : Allocation) (shardNo : Nat) (rolled : Bool)
  /-- `allocateInShard`. -/
  | attempting (a : Allocation) (list : ShardRow) (attempt : Nat) (rolled : Bool)
  | findingRaced (a : Allocation) (list : ShardRow) (attempt : Nat) (rolled : Bool)
  /-- The tombstone is read a second time. -/
  | rechecking (statusAnchor clientId : String) (alloc : AllocatedStatus)
  | forcing (statusAnchor clientId : String) (alloc : AllocatedStatus)
  | allocated (alloc : AllocatedStatus)
  | failed (error : ServerError)
  | upserting (r : Revocation)
  | scanning (r : Revocation) (w : Writes)
  /-- The loop over the entries the scan has found, `found` of them. -/
  | updating (r : Revocation) (w : Writes) (remaining : List String) (found : Nat)
  | revoked (anchor : String) (found : Nat)
  | rolledBack
  deriving DecidableEq, Repr

/-- The committed tables and the calls made so far. -/
structure State where
  lists : List StatusList := []
  entries : List BadgeStatusEntry := []
  tombstones : List StatusAnchorRevocation := []
  calls : List Call := []

/-- The unique constraint that an insert reports to have violated. -/
inductive ConstraintKind
  | anchor
  | index
  deriving DecidableEq, Repr

inductive Action
  | allocate (statusAnchor clientId : String)
  | revoke (r : Revocation)
  | readAnchor (i : Nat)
  | findExisting (i : Nat)
  | findShard (i : Nat)
  | countEntries (i : Nat)
  | createShard (i : Nat) (freshId : String)
  | rereadShard (i : Nat)
  | attempt (i bitIndex : Nat) (freshId : String) (reported : ConstraintKind)
  | findRaced (i : Nat)
  | recheck (i : Nat)
  | force (i now : Nat)
  | upsert (i : Nat)
  | scan (i : Nat)
  | update (i jitter : Nat)
  | finish (i : Nat)
  | rollback (i : Nat)

/-! ### Allocation -/

namespace State

variable (s : State)

def setCall (i : Nat) (c : Call) : State := { s with calls := s.calls.set i c }

def anchorRevokedAt (statusAnchor : String) : Option Nat :=
  (s.tombstones.find? fun t => t.statusAnchor = statusAnchor).map (·.revokedAt)

def findExisting (statusAnchor clientId : String) : Option AllocatedStatus :=
  (s.entries.find? fun e => e.statusAnchor = statusAnchor ∧ e.clientId = clientId).map
    fun e => ⟨e.listId, e.bitIndex⟩

/-- The shard with the highest number. -/
def topShard (clientId : String) : Option ShardRow :=
  (s.lists.filter fun l => l.clientId = clientId).foldl
    (fun best l =>
      match best with
      | none => some ⟨l.id, l.shardNo⟩
      | some row => if row.shardNo < l.shardNo then some ⟨l.id, l.shardNo⟩ else some row) none

def findShardNo (clientId : String) (shardNo : Nat) : Option ShardRow :=
  (s.lists.find? fun l => l.clientId = clientId ∧ l.shardNo = shardNo).map
    fun l => ⟨l.id, l.shardNo⟩

end State

def exhaustedError (a : Allocation) : String :=
  let anchor := a.statusAnchor
  let client := a.clientId
  s!"status-list: could not allocate a bit index for ({anchor}, {client}) after shard roll"

/-- After a failed attempt: the next one, or the next shard, or none. -/
def nextAttempt (a : Allocation) (list : ShardRow) (attempt : Nat) (rolled : Bool) : Call :=
  if attempt + 1 < maxRandomAttempts then .attempting a list (attempt + 1) rolled
  else if rolled then .failed (.thrown (exhaustedError a))
  else .creatingShard a (list.shardNo + 1) true

/-- The tombstone is read again only if it was not there the first time. -/
def reconcile (a : Allocation) (alloc : AllocatedStatus) : Call :=
  match a.revokedAt with
  | some _ => .forcing a.statusAnchor a.clientId alloc
  | none => .rechecking a.statusAnchor a.clientId alloc

/-- The new row. If the anchor was revoked at the first read, the entry is born revoked. -/
def newEntry (a : Allocation) (list : ShardRow) (bitIndex : Nat) (freshId : String) :
    BadgeStatusEntry :=
  ⟨freshId, a.statusAnchor, a.clientId, list.id, bitIndex, a.revokedAt, a.revokedAt⟩

namespace State

variable (s : State)

def readAnchor (i : Nat) : Option State :=
  match s.calls[i]? with
  | some (.readingAnchor statusAnchor clientId) =>
    some (s.setCall i
      (.findingExisting ⟨statusAnchor, clientId, s.anchorRevokedAt statusAnchor⟩))
  | _ => none

/-- An entry that is there is returned, after revoking it if the anchor is revoked. -/
def lookUp (i : Nat) : Option State :=
  match s.calls[i]? with
  | some (.findingExisting a) =>
    match s.findExisting a.statusAnchor a.clientId, a.revokedAt with
    | none, _ => some (s.setCall i (.findingShard a))
    | some existing, none => some (s.setCall i (.allocated existing))
    | some existing, some _ =>
      some (s.setCall i (.forcing a.statusAnchor a.clientId existing))
  | _ => none

def findShard (i : Nat) : Option State :=
  match s.calls[i]? with
  | some (.findingShard a) =>
    match s.topShard a.clientId with
    | none => some (s.setCall i (.creatingShard a 0 false))
    | some top => some (s.setCall i (.countingEntries a top))
  | _ => none

def countEntries (i : Nat) : Option State :=
  match s.calls[i]? with
  | some (.countingEntries a top) =>
    if pastFillThreshold (s.entries.filter fun e => e.listId = top.id).length then
      some (s.setCall i (.creatingShard a (top.shardNo + 1) false))
    else some (s.setCall i (.attempting a top 0 false))
  | _ => none

def createShard (i : Nat) (freshId : String) : Option State :=
  match s.calls[i]? with
  | some (.creatingShard a shardNo rolled) =>
    if freshId ∈ s.lists.map (·.id) then none
    else
      match create ⟨freshId, a.clientId, shardNo⟩ s.lists with
      | .ok lists =>
        some ({ s with lists }.setCall i (.attempting a ⟨freshId, shardNo⟩ 0 rolled))
      | .error _ => some (s.setCall i (.rereadingShard a shardNo rolled))
  | _ => none

def rereadShard (i : Nat) : Option State :=
  match s.calls[i]? with
  | some (.rereadingShard a shardNo rolled) =>
    match s.findShardNo a.clientId shardNo with
    | some existing => some (s.setCall i (.attempting a existing 0 rolled))
    | none => some (s.setCall i (.failed (.db .uniqueViolation)))
  | _ => none

/-- Insert an entry at a random index. An insert that violates both constraints reports
one of them. -/
def attempt (i bitIndex : Nat) (freshId : String) (reported : ConstraintKind) : Option State :=
  match s.calls[i]? with
  | some (.attempting a list attempt rolled) =>
    if shardSizeBits ≤ bitIndex ∨ freshId ∈ s.entries.map (·.id) then none
    else
      match create (newEntry a list bitIndex freshId) s.entries with
      | .ok entries => some ({ s with entries }.setCall i (reconcile a ⟨list.id, bitIndex⟩))
      | .error _ =>
        match reported with
        | .anchor =>
          if (s.findExisting a.statusAnchor a.clientId).isNone then none
          else some (s.setCall i (.findingRaced a list attempt rolled))
        | .index =>
          if s.entries.any fun e => e.listId = list.id ∧ e.bitIndex = bitIndex then
            some (s.setCall i (nextAttempt a list attempt rolled))
          else none
  | _ => none

def findRaced (i : Nat) : Option State :=
  match s.calls[i]? with
  | some (.findingRaced a list attempt rolled) =>
    match s.findExisting a.statusAnchor a.clientId with
    | some raced => some (s.setCall i (reconcile a raced))
    | none => some (s.setCall i (nextAttempt a list attempt rolled))
  | _ => none

def recheck (i : Nat) : Option State :=
  match s.calls[i]? with
  | some (.rechecking statusAnchor clientId alloc) =>
    match s.anchorRevokedAt statusAnchor with
    | some _ => some (s.setCall i (.forcing statusAnchor clientId alloc))
    | none => some (s.setCall i (.allocated alloc))
  | _ => none

end State

/-- What a call has written and not committed. -/
def Call.writes : Call → Option Writes
  | .scanning _ w => some w
  | .updating _ w _ _ => some w
  | _ => none

/-- Another call's transaction has written to the row. -/
def State.locked (s : State) (i : Nat) (entryId : String) : Bool :=
  (s.calls.eraseIdx i).any fun c =>
    c.writes.any fun w => w.revealAfter.any fun u => u.1 = entryId

/-- Another call's transaction has inserted the tombstone. -/
def State.reserved (s : State) (i : Nat) (anchor : String) : Bool :=
  (s.calls.eraseIdx i).any fun c =>
    c.writes.any fun w => w.tombstone.any fun t => t.statusAnchor = anchor

namespace State

variable (s : State)

/-- The rows `forceRevokeEntry` selects. -/
def isClear (statusAnchor clientId : String) (e : BadgeStatusEntry) : Bool :=
  e.statusAnchor = statusAnchor ∧ e.clientId = clientId ∧ e.revokedAt = none

/-- `forceRevokeEntry`. -/
def force (i now : Nat) : Option State :=
  match s.calls[i]? with
  | some (.forcing statusAnchor clientId alloc) =>
    if s.entries.any fun e => isClear statusAnchor clientId e ∧ s.locked i e.id then none
    else
      some ({ s with
          entries := mapWhere (isClear statusAnchor clientId)
            (fun e => { e with revokedAt := some now, revealAfter := some now }) s.entries }.setCall
        i (.allocated alloc))
  | _ => none

/-! ### Revocation -/

/-- The tombstone that a revocation writes. -/
def tombstoneOf (r : Revocation) : StatusAnchorRevocation := ⟨r.anchor, r.nowMs, r.reason⟩

/-- Write the tombstone, unless there is one. -/
def upsert (i : Nat) : Option State :=
  match s.calls[i]? with
  | some (.upserting r) =>
    if s.reserved i r.anchor then none
    else if s.tombstones.any fun t => t.statusAnchor = r.anchor then
      some (s.setCall i (.scanning r {}))
    else if r.inTransaction then
      some (s.setCall i (.scanning r { tombstone := some (tombstoneOf r) }))
    else
      some ({ s with tombstones := s.tombstones ++ [tombstoneOf r] }.setCall i (.scanning r {}))
  | _ => none

/-- The ids of the entries that are not revoked yet. -/
def clearIds (anchor : String) : List String :=
  (s.entries.filter fun e => e.statusAnchor = anchor ∧ e.revokedAt = none).map (·.id)

def scan (i : Nat) : Option State :=
  match s.calls[i]? with
  | some (.scanning r w) =>
    some (s.setCall i (.updating r w (s.clearIds r.anchor) (s.clearIds r.anchor).length))
  | _ => none

end State

/-- Mark the entry revoked. -/
def revokeEntry (nowMs : Nat) (entryId : String) (revealAfter : Nat)
    (entries : List BadgeStatusEntry) : List BadgeStatusEntry :=
  mapWhere (fun e => e.id = entryId)
    (fun e => { e with revokedAt := some nowMs, revealAfter := some revealAfter }) entries

/-- What a transaction has written to the entries becomes visible. -/
def commitEntries (nowMs : Nat) (writes : List (String × Nat))
    (entries : List BadgeStatusEntry) : List BadgeStatusEntry :=
  writes.foldl (fun t u => revokeEntry nowMs u.1 u.2 t) entries

namespace State

variable (s : State)

/-- One round of the loop, with a jitter of its own. -/
def update (i jitter : Nat) : Option State :=
  match s.calls[i]? with
  | some (.updating r w (entryId :: remaining) found) =>
    if jitterMaxMs < jitter ∨ s.locked i entryId then none
    else if r.inTransaction then
      some (s.setCall i (.updating r
        { w with revealAfter := w.revealAfter ++ [(entryId, r.nowMs + jitter)] } remaining found))
    else
      some ({ s with
          entries := revokeEntry r.nowMs entryId (r.nowMs + jitter) s.entries }.setCall i
        (.updating r w remaining found))
  | _ => none

/-- The call returns, and the transaction it was given commits. -/
def finish (i : Nat) : Option State :=
  match s.calls[i]? with
  | some (.updating r w [] found) =>
    some ({ s with
        tombstones := s.tombstones ++ w.tombstone.toList
        entries := commitEntries r.nowMs w.revealAfter s.entries }.setCall i
      (.revoked r.anchor found))
  | _ => none

/-- The transaction fails, here or in what its caller does with it. -/
def rollback (i : Nat) : Option State :=
  match s.calls[i]? with
  | some (.upserting r) => if r.inTransaction then some (s.setCall i .rolledBack) else none
  | some (.scanning r _) => if r.inTransaction then some (s.setCall i .rolledBack) else none
  | some (.updating r _ _ _) => if r.inTransaction then some (s.setCall i .rolledBack) else none
  | _ => none

end State

def step (s : State) : Action → Option State
  | .allocate statusAnchor clientId =>
    some { s with calls := s.calls ++ [.readingAnchor statusAnchor clientId] }
  | .revoke r => some { s with calls := s.calls ++ [.upserting r] }
  | .readAnchor i => s.readAnchor i
  | .findExisting i => s.lookUp i
  | .findShard i => s.findShard i
  | .countEntries i => s.countEntries i
  | .createShard i freshId => s.createShard i freshId
  | .rereadShard i => s.rereadShard i
  | .attempt i bitIndex freshId reported => s.attempt i bitIndex freshId reported
  | .findRaced i => s.findRaced i
  | .recheck i => s.recheck i
  | .force i now => s.force i now
  | .upsert i => s.upsert i
  | .scan i => s.scan i
  | .update i jitter => s.update i jitter
  | .finish i => s.finish i
  | .rollback i => s.rollback i

/-! ### What a statement can do -/

/-- The anchor has a committed tombstone. -/
def State.Tombstoned (s : State) (anchor : String) : Prop :=
  ∃ t ∈ s.tombstones, t.statusAnchor = anchor

/-- The allocation of a call that looks for a free index. -/
def Call.searching? : Call → Option Allocation
  | .findingShard a | .countingEntries a _ | .creatingShard a _ _ | .rereadingShard a _ _
  | .attempting a _ _ _ | .findingRaced a _ _ _ => some a
  | _ => none

/-- The shard that a call has chosen. -/
def Call.shard? : Call → Option ShardRow
  | .countingEntries _ list | .attempting _ list _ _ | .findingRaced _ list _ _ => some list
  | _ => none

/-- The shard is one of the client's. -/
def State.Shard (s : State) (clientId : String) (row : ShardRow) : Prop :=
  ∃ l ∈ s.lists, l.id = row.id ∧ l.clientId = clientId

/-- The revocation that a call makes. -/
def Call.revoking? : Call → Option Revocation
  | .upserting r | .scanning r _ | .updating r _ _ _ => some r
  | _ => none

/-- The statements that change no table, by where the call stands before and after. -/
inductive Moves (s : State) : Call → Call → Prop
  | readsAnchor {statusAnchor clientId : String} :
    Moves s (.readingAnchor statusAnchor clientId)
      (.findingExisting ⟨statusAnchor, clientId, s.anchorRevokedAt statusAnchor⟩)
  | misses {a : Allocation} (h : s.findExisting a.statusAnchor a.clientId = none) :
    Moves s (.findingExisting a) (.findingShard a)
  | finds {a : Allocation} {alloc : AllocatedStatus}
    (h : s.findExisting a.statusAnchor a.clientId = some alloc) (hclear : a.revokedAt = none) :
    Moves s (.findingExisting a) (.allocated alloc)
  | findsRevoked {a : Allocation} {alloc : AllocatedStatus} {n : Nat}
    (h : s.findExisting a.statusAnchor a.clientId = some alloc) (hrevoked : a.revokedAt = some n) :
    Moves s (.findingExisting a) (.forcing a.statusAnchor a.clientId alloc)
  | searches {c c' : Call} {a : Allocation} (h : c.searching? = some a)
    (h' : c'.searching? = some a)
    (hshard : ∀ row, c'.shard? = some row → c.shard? = some row ∨ s.Shard a.clientId row) :
    Moves s c c'
  | givesUp {c : Call} {a : Allocation} {e : ServerError} (h : c.searching? = some a) :
    Moves s c (.failed e)
  | raced {a : Allocation} {list : ShardRow} {attempt : Nat} {rolled : Bool}
    {alloc : AllocatedStatus} (h : s.findExisting a.statusAnchor a.clientId = some alloc) :
    Moves s (.findingRaced a list attempt rolled) (reconcile a alloc)
  | rechecks {statusAnchor clientId : String} {alloc : AllocatedStatus}
    (h : s.anchorRevokedAt statusAnchor = none) :
    Moves s (.rechecking statusAnchor clientId alloc) (.allocated alloc)
  | rechecksRevoked {statusAnchor clientId : String} {alloc : AllocatedStatus} {n : Nat}
    (h : s.anchorRevokedAt statusAnchor = some n) :
    Moves s (.rechecking statusAnchor clientId alloc) (.forcing statusAnchor clientId alloc)
  | keeps {r : Revocation} (h : s.Tombstoned r.anchor) : Moves s (.upserting r) (.scanning r {})
  | holds {r : Revocation} (h : r.inTransaction = true) :
    Moves s (.upserting r) (.scanning r { tombstone := some (State.tombstoneOf r) })
  | scans {r : Revocation} {w : Writes} :
    Moves s (.scanning r w)
      (.updating r w (s.clearIds r.anchor) (s.clearIds r.anchor).length)
  | queues {r : Revocation} {w : Writes} {entryId : String} {remaining : List String}
    {found jitter : Nat} (h : r.inTransaction = true) :
    Moves s (.updating r w (entryId :: remaining) found)
      (.updating r { w with revealAfter := w.revealAfter ++ [(entryId, r.nowMs + jitter)] }
        remaining found)
  | rollsBack {c : Call} {r : Revocation} (h : c.revoking? = some r)
    (htx : r.inTransaction = true) : Moves s c .rolledBack

/-- A statement of call `i`, which stands at the first argument. -/
inductive Turn (s : State) (i : Nat) : Call → State → Prop
  | moves {c c' : Call} (h : Moves s c c') : Turn s i c (s.setCall i c')
  | creates {a : Allocation} {shardNo : Nat} {rolled : Bool} {freshId : String}
    (hid : freshId ∉ s.lists.map (·.id)) :
    Turn s i (.creatingShard a shardNo rolled)
      ({ s with lists := s.lists ++ [StatusList.mk freshId a.clientId shardNo] }.setCall i
        (.attempting a ⟨freshId, shardNo⟩ 0 rolled))
  | inserts {a : Allocation} {list : ShardRow} {attempt bitIndex : Nat} {rolled : Bool}
    {freshId : String} (hbit : bitIndex < shardSizeBits)
    (h : Consistent (s.entries ++ [newEntry a list bitIndex freshId])) :
    Turn s i (.attempting a list attempt rolled)
      ({ s with entries := s.entries ++ [newEntry a list bitIndex freshId] }.setCall i
        (reconcile a ⟨list.id, bitIndex⟩))
  | forces {statusAnchor clientId : String} {alloc : AllocatedStatus} {now : Nat} :
    Turn s i (.forcing statusAnchor clientId alloc)
      ({ s with
        entries := mapWhere (State.isClear statusAnchor clientId)
          (fun e => { e with revokedAt := some now, revealAfter := some now }) s.entries }.setCall i
        (.allocated alloc))
  | writes {r : Revocation} (h : r.inTransaction = false) :
    Turn s i (.upserting r)
      ({ s with tombstones := s.tombstones ++ [State.tombstoneOf r] }.setCall i (.scanning r {}))
  | marks {r : Revocation} {w : Writes} {entryId : String} {remaining : List String}
    {found jitter : Nat} (h : r.inTransaction = false) :
    Turn s i (.updating r w (entryId :: remaining) found)
      ({ s with entries := revokeEntry r.nowMs entryId (r.nowMs + jitter) s.entries }.setCall i
        (.updating r w remaining found))
  | commits {r : Revocation} {w : Writes} {found : Nat} :
    Turn s i (.updating r w [] found)
      ({ s with
        tombstones := s.tombstones ++ w.tombstone.toList
        entries := commitEntries r.nowMs w.revealAfter s.entries }.setCall i
        (.revoked r.anchor found))

/-- The call that an action starts. -/
def Action.started? : Action → Option Call
  | .allocate statusAnchor clientId => some (.readingAnchor statusAnchor clientId)
  | .revoke r => some (.upserting r)
  | _ => none

/-- The call whose statement an action is. -/
def Action.call? : Action → Option Nat
  | .allocate _ _ | .revoke _ => none
  | .readAnchor i | .findExisting i | .findShard i | .countEntries i | .createShard i _
  | .rereadShard i | .attempt i _ _ _ | .findRaced i | .recheck i | .force i _ | .upsert i | .scan i
  | .update i _ | .finish i | .rollback i => some i

section Inversion

variable {s s' : State} {i : Nat}

theorem tombstoned_of_any {anchor : String}
    (h : (s.tombstones.any fun t => decide (t.statusAnchor = anchor)) = true) :
    s.Tombstoned anchor := by
  obtain ⟨t, ht, hanchor⟩ := List.any_eq_true.mp h
  exact ⟨t, ht, of_decide_eq_true hanchor⟩

theorem shard_of_topShard {clientId : String} {row : ShardRow}
    (h : s.topShard clientId = some row) : s.Shard clientId row := by
  -- whatever the fold has kept so far is a row of the client
  have hfold (ls : List StatusList) (best : Option ShardRow)
      (hls : ∀ l ∈ ls, l ∈ s.lists ∧ l.clientId = clientId)
      (hbest : ∀ row, best = some row → s.Shard clientId row) :
      ∀ row, ls.foldl
          (fun best l =>
            match best with
            | none => some ⟨l.id, l.shardNo⟩
            | some row => if row.shardNo < l.shardNo then some ⟨l.id, l.shardNo⟩ else some row)
          best = some row → s.Shard clientId row := by
    induction ls generalizing best with
    | nil => exact hbest
    | cons l ls ih =>
      have hl : s.Shard clientId ⟨l.id, l.shardNo⟩ :=
        ⟨l, (hls l List.mem_cons_self).1, rfl, (hls l List.mem_cons_self).2⟩
      refine ih _ (fun l' hl' => hls l' (List.mem_cons_of_mem _ hl')) fun row hrow => ?_
      dsimp only at hrow
      split at hrow
      · exact Option.some.inj hrow ▸ hl
      · split_ifs at hrow
        · exact Option.some.inj hrow ▸ hl
        · exact hbest _ hrow
  refine hfold _ none (fun l hl => ?_) nofun row h
  exact ⟨(List.mem_filter.mp hl).1, of_decide_eq_true (List.mem_filter.mp hl).2⟩

theorem shard_of_findShardNo {clientId : String} {shardNo : Nat} {row : ShardRow}
    (h : s.findShardNo clientId shardNo = some row) : s.Shard clientId row := by
  obtain ⟨l, hl, rfl⟩ := Option.map_eq_some_iff.mp h
  have hclient := List.find?_some hl
  exact ⟨l, List.mem_of_find?_eq_some hl, rfl, (of_decide_eq_true hclient).1⟩

theorem turn_nextAttempt {a : Allocation} {list : ShardRow} {attempt : Nat} {rolled : Bool}
    {c : Call} (hc : c.searching? = some a) (hlist : c.shard? = some list) :
    Turn s i c (s.setCall i (nextAttempt a list attempt rolled)) := by
  unfold nextAttempt
  split_ifs
  · exact .moves (.searches hc rfl fun row hrow => .inl (hlist.trans hrow))
  · exact .moves (.givesUp hc)
  · exact .moves (.searches hc rfl nofun)

theorem turn_attempt {bitIndex : Nat} {freshId : String} {reported : ConstraintKind}
    (h : s.attempt i bitIndex freshId reported = some s') :
    ∃ c, s.calls[i]? = some c ∧ Turn s i c s' := by
  unfold State.attempt at h
  split at h
  · rename_i a list attempt rolled hcall
    refine ⟨_, hcall, ?_⟩
    split at h
    · cases h
    rename_i hguard
    split at h
    · rename_i entries hcreate
      obtain ⟨hcons, rfl⟩ := create_eq_ok_iff.mp hcreate
      cases h
      exact .inserts (Nat.lt_of_not_le fun hle => hguard (.inl hle)) hcons
    · split at h
      · split_ifs at h
        cases h
        exact .moves (.searches rfl rfl fun row hrow => .inl hrow)
      · split_ifs at h
        cases h
        exact turn_nextAttempt rfl rfl
  · cases h

theorem turn_createShard {freshId : String} (h : s.createShard i freshId = some s') :
    ∃ c, s.calls[i]? = some c ∧ Turn s i c s' := by
  unfold State.createShard at h
  split at h
  · rename_i a shardNo rolled hcall
    refine ⟨_, hcall, ?_⟩
    split_ifs at h with hid
    split at h
    · rename_i lists hcreate
      obtain ⟨-, rfl⟩ := create_eq_ok_iff.mp hcreate
      cases h
      exact .creates hid
    · cases h
      exact .moves (.searches rfl rfl nofun)
  · cases h

theorem turn_upsert (h : s.upsert i = some s') : ∃ c, s.calls[i]? = some c ∧ Turn s i c s' := by
  unfold State.upsert at h
  split at h
  · rename_i r hcall
    refine ⟨_, hcall, ?_⟩
    split_ifs at h with hreserved hthere htx
    · cases h
      exact .moves (.keeps (tombstoned_of_any hthere))
    · cases h
      exact .moves (.holds htx)
    · cases h
      exact .writes (Bool.eq_false_iff.mpr htx)
  · cases h

theorem turn_update {jitter : Nat} (h : s.update i jitter = some s') :
    ∃ c, s.calls[i]? = some c ∧ Turn s i c s' := by
  unfold State.update at h
  split at h
  · rename_i r w entryId remaining found hcall
    refine ⟨_, hcall, ?_⟩
    split_ifs at h with hwait htx
    · cases h
      exact .moves (.queues htx)
    · cases h
      exact .marks (Bool.eq_false_iff.mpr htx)
  · cases h

theorem turn_lookUp (h : s.lookUp i = some s') : ∃ c, s.calls[i]? = some c ∧ Turn s i c s' := by
  unfold State.lookUp at h
  split at h
  · rename_i a hcall
    refine ⟨_, hcall, ?_⟩
    split at h
    · rename_i hfind
      cases h
      exact .moves (.misses hfind)
    · rename_i alloc hclear hfind
      cases h
      exact .moves (.finds hclear hfind)
    · rename_i alloc n hrevoked hfind
      cases h
      exact .moves (.findsRevoked hrevoked hfind)
  · cases h

theorem turn_of_step {a : Action} (h : step s a = some s') :
    (∃ c, a.started? = some c ∧ s' = { s with calls := s.calls ++ [c] }) ∨
      ∃ i c, a.call? = some i ∧ s.calls[i]? = some c ∧ Turn s i c s' := by
  have hcall {i : Nat} (hi : a.call? = some i) (h : ∃ c, s.calls[i]? = some c ∧ Turn s i c s') :
      ∃ i c, a.call? = some i ∧ s.calls[i]? = some c ∧ Turn s i c s' := by
    obtain ⟨c, hc, hturn⟩ := h
    exact ⟨i, c, hi, hc, hturn⟩
  cases a with
  | allocate | revoke => exact .inl ⟨_, rfl, (Option.some.inj h).symm⟩
  | attempt i bitIndex freshId reported => exact .inr (hcall rfl (turn_attempt h))
  | createShard i freshId => exact .inr (hcall rfl (turn_createShard h))
  | upsert i => exact .inr (hcall rfl (turn_upsert h))
  | update i jitter => exact .inr (hcall rfl (turn_update h))
  | findExisting i => exact .inr (hcall rfl (turn_lookUp h))
  | readAnchor i =>
    refine .inr (hcall rfl ?_)
    simp only [step, State.readAnchor] at h
    split at h <;> cases h
    rename_i hc
    exact ⟨_, hc, .moves .readsAnchor⟩
  | findShard i =>
    refine .inr (hcall rfl ?_)
    simp only [step, State.findShard] at h
    split at h
    · rename_i hc
      refine ⟨_, hc, ?_⟩
      split at h
      · cases h
        exact .moves (.searches rfl rfl nofun)
      · rename_i top htop
        cases h
        refine .moves (.searches rfl rfl fun row hrow => .inr ?_)
        exact Option.some.inj hrow ▸ shard_of_topShard htop
    · cases h
  | countEntries i =>
    refine .inr (hcall rfl ?_)
    simp only [step, State.countEntries] at h
    split at h
    · rename_i hc
      refine ⟨_, hc, ?_⟩
      split_ifs at h
      · cases h
        exact .moves (.searches rfl rfl nofun)
      · cases h
        exact .moves (.searches rfl rfl fun row hrow => .inl hrow)
    · cases h
  | rereadShard i =>
    refine .inr (hcall rfl ?_)
    simp only [step, State.rereadShard] at h
    split at h
    · rename_i hc
      refine ⟨_, hc, ?_⟩
      split at h
      · rename_i existing hfind
        cases h
        refine .moves (.searches rfl rfl fun row hrow => .inr ?_)
        exact Option.some.inj hrow ▸ shard_of_findShardNo hfind
      · cases h
        exact .moves (.givesUp rfl)
    · cases h
  | findRaced i =>
    refine .inr (hcall rfl ?_)
    simp only [step, State.findRaced] at h
    split at h
    · rename_i hc
      refine ⟨_, hc, ?_⟩
      split at h
      · rename_i hfind
        cases h
        exact .moves (.raced hfind)
      · cases h
        exact turn_nextAttempt rfl rfl
    · cases h
  | recheck i =>
    refine .inr (hcall rfl ?_)
    simp only [step, State.recheck] at h
    split at h
    · rename_i hc
      refine ⟨_, hc, ?_⟩
      split at h
      · rename_i hrevoked
        cases h
        exact .moves (.rechecksRevoked hrevoked)
      · rename_i hclear
        cases h
        exact .moves (.rechecks hclear)
    · cases h
  | force i now =>
    refine .inr (hcall rfl ?_)
    simp only [step, State.force] at h
    split at h
    · rename_i hc
      split_ifs at h
      cases h
      exact ⟨_, hc, .forces⟩
    · cases h
  | scan i =>
    refine .inr (hcall rfl ?_)
    simp only [step, State.scan] at h
    split at h <;> cases h
    rename_i hc
    exact ⟨_, hc, .moves .scans⟩
  | finish i =>
    refine .inr (hcall rfl ?_)
    simp only [step, State.finish] at h
    split at h <;> cases h
    rename_i hc
    exact ⟨_, hc, .commits⟩
  | rollback i =>
    refine .inr (hcall rfl ?_)
    simp only [step, State.rollback] at h
    split at h
    case h_4 => cases h
    all_goals
      rename_i hc
      split_ifs at h with htx
      cases h
      exact ⟨_, hc, .moves (.rollsBack rfl htx)⟩

end Inversion

end Minister.StatusLists

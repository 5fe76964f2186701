import Minister.Oidc.Consent
import Minister.Transition.Pool
import Minister.Transition.Run

/-!
# Invite codes

`redeemInviteCode` reads a code, checks that it can be redeemed, and then redeems it in a
transaction: a limited code loses one use, and a row is inserted for the code and the account. Calls
run side by side, one statement at a time.

The update takes the lock of the code's row, which the transaction keeps until it ends. Until then
other transactions wait at their own update, and nobody sees the use that was taken. The insert is
the last statement and counts as one with the commit; if it is refused, the update is undone.
-/

namespace Minister.InviteCodes

open Relational Transition
open Oidc (trim)

/-- `INVALID_CODE_MESSAGE`. -/
def invalidCodeMessage : String := "Invalid, expired, or exhausted invite code."

/-- `ALREADY_REDEEMED_MESSAGE`. -/
def alreadyRedeemedMessage : String := "You've already redeemed this code."

/-- A code; `usesTotal` is 0 if it is unlimited. -/
structure InviteCode where
  id : String
  code : String
  label : String
  usesTotal : Int
  usesRemaining : Int
  expiresAt : Option Timestamp := none
  revokedAt : Option Timestamp := none
  deriving DecidableEq, Repr

instance : Constrained InviteCode where
  clash a b := a.id == b.id || a.code == b.code

/-- The message of the refusal, if any. -/
def evaluateInviteCode (row : InviteCode) (alreadyRedeemed : Bool) (now : Timestamp) :
    Option String :=
  if row.revokedAt.isSome then some invalidCodeMessage
  else if row.expiresAt.any fun expiresAt => expiresAt < now then some invalidCodeMessage
  else if row.usesTotal > 0 ∧ row.usesRemaining ≤ 0 then some invalidCodeMessage
  else if alreadyRedeemed then some alreadyRedeemedMessage
  else none

/-! ### Calls -/

inductive RedeemResult
  | ok (inviteCodeId label : String)
  | refused (message : String)
  /-- The database failed, and what the transaction did is undone. -/
  | thrown
  deriving DecidableEq, Repr

/-- Where a call stands. -/
inductive Call
  | finding (code : String) (userId : UserId)
  | starting (row : InviteCode) (userId : UserId)
  /-- The transaction has taken a use, and holds the lock of the row. -/
  | inserting (row : InviteCode) (userId : UserId)
  | done (userId : UserId) (result : RedeemResult)
  deriving DecidableEq, Repr

/-- What is committed, and the calls. -/
structure State where
  codes : List InviteCode := []
  redemptions : List InviteRedemption := []
  calls : List Call := []

inductive Action
  /-- An admin creates a code, or revokes one. -/
  | createInviteCode (id code label : String) (usesTotal : Nat) (expiresAt : Option Timestamp)
  | revokeInviteCode (inviteCodeId : String) (now : Timestamp)
  | redeem (rawCode : String) (userId : UserId)
  /-- The next statement of a call: the clock, and the id of a new row. -/
  | advance (i : Nat) (now : Timestamp) (rowId : String)
  /-- A statement of the call fails. -/
  | fail (i : Nat)

/-- `normalizeInviteCode`, given `toUpperCase`. -/
def normalizeInviteCode (toUpperCase : String → String) (raw : String) : String :=
  toUpperCase (String.ofList (trim raw.toList))

def startRedeem (toUpperCase : String → String) (rawCode : String) (userId : UserId) : Call :=
  let code := normalizeInviteCode toUpperCase rawCode
  if code = "" then .done userId (.refused invalidCodeMessage) else .finding code userId

def State.find (s : State) (code : String) (userId : UserId) (now : Timestamp) : Call :=
  match s.codes.find? fun c => c.code = code with
  | none => .done userId (.refused invalidCodeMessage)
  | some row =>
    let redeemed := s.redemptions.any fun r => r.inviteCodeId = row.id ∧ r.userId = userId
    match evaluateInviteCode row redeemed now with
    | some message => .done userId (.refused message)
    | none => .starting row userId

/-- The row that the call holds the lock of. -/
def Call.lock : Call → Option String
  | .inserting row _ => some row.id
  | .finding _ _ | .starting _ _ | .done _ _ => none

/-- The guarded update finds the row. -/
def State.hasUse (s : State) (row : InviteCode) : Bool :=
  s.codes.any fun c => c.id = row.id ∧ c.revokedAt = none ∧ c.usesRemaining > 0

def decrement (id : String) (codes : List InviteCode) : List InviteCode :=
  mapWhere (fun c => c.id = id) (fun c => { c with usesRemaining := c.usesRemaining - 1 }) codes

/-- The insert and the commit, with the codes as the transaction has them. -/
def State.insert (s : State) (i : Nat) (row : InviteCode) (userId : UserId) (now : Timestamp)
    (rowId : String) (codes : List InviteCode) : State :=
  match create ⟨rowId, row.id, userId, now⟩ s.redemptions with
  | .ok redemptions =>
    { codes, redemptions, calls := s.calls.set i (.done userId (.ok row.id row.label)) }
  | .error _ =>
    { s with calls := s.calls.set i (.done userId (.refused alreadyRedeemedMessage)) }

def State.advance (s : State) (i : Nat) (now : Timestamp) (rowId : String) : Option State :=
  match s.calls[i]? with
  | some (.finding code userId) =>
    some { s with calls := s.calls.set i (s.find code userId now) }
  | some (.starting row userId) =>
    if row.usesTotal > 0 then
      -- the update waits for the lock
      if row.id ∈ s.calls.filterMap Call.lock then none
      else if s.hasUse row then some { s with calls := s.calls.set i (.inserting row userId) }
      else some { s with calls := s.calls.set i (.done userId (.refused invalidCodeMessage)) }
    else some (s.insert i row userId now rowId s.codes)
  | some (.inserting row userId) =>
    some (s.insert i row userId now rowId (decrement row.id s.codes))
  | some (.done _ _) | none => none

def Call.userId : Call → UserId
  | .finding _ userId | .starting _ userId | .inserting _ userId | .done userId _ => userId

def State.fail (s : State) (i : Nat) : Option State :=
  match s.calls[i]? with
  | some (.done _ _) | none => none
  | some c => some { s with calls := s.calls.set i (.done c.userId .thrown) }

def revoke (inviteCodeId : String) (now : Timestamp) (codes : List InviteCode) :
    List InviteCode :=
  mapWhere (fun c => c.id = inviteCodeId ∧ c.revokedAt = none)
    (fun c => { c with revokedAt := some now }) codes

def step (toUpperCase : String → String) (s : State) : Action → Option State
  | .createInviteCode id code label usesTotal expiresAt =>
    (create ⟨id, code, label, usesTotal, usesTotal, expiresAt, none⟩ s.codes).toOption.map
      fun codes => { s with codes }
  | .revokeInviteCode inviteCodeId now =>
    -- this update waits for the lock too
    if inviteCodeId ∈ s.calls.filterMap Call.lock then none
    else some { s with codes := revoke inviteCodeId now s.codes }
  | .redeem rawCode userId =>
    some { s with calls := s.calls ++ [startRedeem toUpperCase rawCode userId] }
  | .advance i now rowId => s.advance i now rowId
  | .fail i => s.fail i

/-! ### The property -/

/-- The number of rows for a code. -/
def redemptionCount (redemptions : List InviteRedemption) (codeId : String) : Nat :=
  redemptions.countP fun r => r.inviteCodeId = codeId

/-- A limited code has as many uses left as its rows leave of the total, and no fewer than none. -/
def Budgeted (codes : List InviteCode) (redemptions : List InviteRedemption) : Prop :=
  ∀ c ∈ codes, 0 < c.usesTotal →
    c.usesRemaining = c.usesTotal - redemptionCount redemptions c.id ∧ 0 ≤ c.usesRemaining

/-- The number of rows for a code and an account. -/
def redemptionCountOf (redemptions : List InviteRedemption) (codeId : String) (userId : UserId) :
    Nat :=
  redemptions.countP fun r => r.inviteCodeId = codeId ∧ r.userId = userId

/-- The call has redeemed the code for the account. -/
def Call.succeeded (codeId : String) (userId : UserId) : Call → Bool
  | .done u (.ok id _) => id = codeId && u = userId
  | .done _ (.refused _) | .done _ .thrown | .finding _ _ | .starting _ _ | .inserting _ _ => false

/-- The two tables. -/
structure Sound (codes : List InviteCode) (redemptions : List InviteRedemption) : Prop where
  consistent : Consistent codes
  unique : Consistent redemptions
  /-- The foreign key of a redemption. -/
  referenced : ∀ r ∈ redemptions, ∃ c ∈ codes, c.id = r.inviteCodeId
  budgeted : Budgeted codes redemptions

/-! ### Tables -/

section Tables

variable {codes codes' : List InviteCode} {redemptions : List InviteRedemption} {c : InviteCode}
  {r : InviteRedemption}

theorem eq_of_id (h : Consistent codes) {d : InviteCode} (hc : c ∈ codes) (hd : d ∈ codes)
    (hid : c.id = d.id) : c = d :=
  h.eq_of_clash hc hd (Bool.or_eq_true_iff.mpr (.inl (beq_iff_eq.mpr hid)))

theorem redemptionCount_append (r : InviteRedemption) (codeId : String) :
    redemptionCount (redemptions ++ [r]) codeId =
      redemptionCount redemptions codeId + if r.inviteCodeId = codeId then 1 else 0 := by
  simp only [redemptionCount, List.countP_append, List.countP_singleton, decide_eq_true_eq]

/-- At most one row for a code and an account. -/
theorem redemptionCountOf_le_one (h : Consistent redemptions) (codeId : String) (userId : UserId) :
    redemptionCountOf redemptions codeId userId ≤ 1 := by
  induction redemptions with
  | nil => exact Nat.zero_le 1
  | cons r rest ih =>
    obtain ⟨hr, hrest⟩ := List.pairwise_cons.mp h
    rw [redemptionCountOf, List.countP_cons]
    split_ifs with hmatch
    · -- the other rows clash with `r` if they match
      apply Nat.succ_le_succ
      rw [Nat.le_zero, List.countP_eq_zero]
      intro r' hr' hmatch'
      have hne := hr r' hr'
      simp_all [clash]
    · exact ih hrest

theorem Sound.nil : Sound [] [] :=
  ⟨Consistent.nil, Consistent.nil, fun _ hr => absurd hr List.not_mem_nil,
    fun _ hc => absurd hc List.not_mem_nil⟩

/-- What an update of the codes keeps, that leaves ids, codes and totals as they are. -/
theorem referenced_mapWhere {p : InviteCode → Bool} {f : InviteCode → InviteCode}
    (hf : ∀ c, (f c).id = c.id) (h : ∀ r ∈ redemptions, ∃ c ∈ codes, c.id = r.inviteCodeId) :
    ∀ r ∈ redemptions, ∃ c ∈ mapWhere p f codes, c.id = r.inviteCodeId := by
  intro r hr
  obtain ⟨c, hc, hid⟩ := h r hr
  refine ⟨if p c then f c else c, List.mem_map_of_mem hc, ?_⟩
  split_ifs
  · exact (hf c).trans hid
  · exact hid

variable (h : Sound codes redemptions)

include h

theorem Sound.createInviteCode {id code label : String} {usesTotal : Nat}
    {expiresAt : Option Timestamp}
    (hcreate : create ⟨id, code, label, usesTotal, usesTotal, expiresAt, none⟩ codes = .ok codes') :
    Sound codes' redemptions := by
  obtain ⟨hcons, rfl⟩ := create_eq_ok_iff.mp hcreate
  have hfresh := (consistent_append_singleton.mp hcons).2
  refine ⟨hcons, h.unique, fun r hr => ?_, ?_⟩
  · obtain ⟨c, hc, hid⟩ := h.referenced r hr
    exact ⟨c, List.mem_append_left _ hc, hid⟩
  · intro c hc hlimited
    rcases List.mem_append.mp hc with hold | hnew
    · exact h.budgeted c hold hlimited
    · cases List.mem_singleton.mp hnew
      -- no row refers to the new code
      have hzero : redemptionCount redemptions id = 0 := by
        rw [redemptionCount, List.countP_eq_zero]
        intro r hr hid
        obtain ⟨d, hd, hdid⟩ := h.referenced r hr
        have := hfresh d hd
        simp_all [clash]
      simp [hzero]

theorem Sound.revoke (id : String) (now : Timestamp) : Sound (revoke id now codes) redemptions := by
  refine ⟨h.consistent.mapWhere_of_clash _ fun _ _ => rfl, h.unique,
    referenced_mapWhere (fun _ => rfl) h.referenced, ?_⟩
  intro c hc hlimited
  obtain ⟨d, hd, rfl⟩ := List.mem_map.mp hc
  split_ifs at hlimited ⊢
  · exact h.budgeted d hd hlimited
  · exact h.budgeted d hd hlimited

theorem Sound.referenced_append (hc : c ∈ codes) (hid : c.id = r.inviteCodeId) :
    ∀ r' ∈ redemptions ++ [r], ∃ d ∈ codes, d.id = r'.inviteCodeId :=
  forall_mem_concat h.referenced ⟨c, hc, hid⟩

/-- The insert of a call whose code is unlimited. -/
theorem Sound.insert (hcons : Consistent (redemptions ++ [r])) (hc : c ∈ codes)
    (hid : c.id = r.inviteCodeId) (hunlimited : ¬0 < c.usesTotal) :
    Sound codes (redemptions ++ [r]) := by
  refine ⟨h.consistent, hcons, h.referenced_append hc hid, fun d hd hlimited => ?_⟩
  · have hne : r.inviteCodeId ≠ d.id := by
      intro heq
      cases eq_of_id h.consistent hc hd (hid.trans heq)
      exact hunlimited hlimited
    rw [redemptionCount_append, if_neg hne]
    exact h.budgeted d hd hlimited

/-- The insert of a call that took a use. -/
theorem Sound.decrement_insert (hcons : Consistent (redemptions ++ [r])) (hc : c ∈ codes)
    (hid : c.id = r.inviteCodeId) (huse : 0 < c.usesRemaining) :
    Sound (decrement r.inviteCodeId codes) (redemptions ++ [r]) := by
  refine ⟨h.consistent.mapWhere_of_clash _ fun _ _ => rfl, hcons,
    referenced_mapWhere (fun _ => rfl) (h.referenced_append hc hid), fun d' hd' hlimited => ?_⟩
  · obtain ⟨d, hd, rfl⟩ := List.mem_map.mp hd'
    by_cases heq : d.id = r.inviteCodeId
    · -- the code itself: one use less, one row more
      cases eq_of_id h.consistent hd hc (heq.trans hid.symm)
      simp only [heq, decide_true, if_true] at hlimited ⊢
      obtain ⟨hleft, _⟩ := h.budgeted c hc hlimited
      rw [heq] at hleft
      rw [redemptionCount_append, if_pos rfl]
      constructor
      · push_cast
        omega
      · omega
    · simp only [heq, decide_false, Bool.false_eq_true, if_false] at hlimited ⊢
      rw [redemptionCount_append, if_neg (Ne.symm heq)]
      exact h.budgeted d hd hlimited

end Tables

/-! ### The invariant -/

/-- What a call knows about the code it read: its total never changes, and while the call holds the
lock there is a use left. -/
def Call.Knows (codes : List InviteCode) : Call → Prop
  | .starting row _ => ∃ c ∈ codes, c.id = row.id ∧ c.usesTotal = row.usesTotal
  | .inserting row _ => ∃ c ∈ codes, c.id = row.id ∧ 0 < c.usesRemaining
  | .finding _ _ | .done _ _ => True

/-- What holds in every state of a run; `before` counts the rows that were there at the start. -/
structure Inv (before : String → UserId → Nat) (s : State) : Prop where
  sound : Sound s.codes s.redemptions
  knows : ∀ c ∈ s.calls, c.Knows s.codes
  locks : (s.calls.filterMap Call.lock).Nodup
  counted : ∀ codeId userId, s.calls.countP (Call.succeeded codeId userId) + before codeId userId =
    redemptionCountOf s.redemptions codeId userId

section Knows

variable {codes : List InviteCode} {c : Call}

theorem knows_append {row : InviteCode} (h : c.Knows codes) : c.Knows (codes ++ [row]) := by
  cases c with
  | finding | done => trivial
  | starting | inserting =>
    obtain ⟨d, hd, hknown⟩ := h
    exact ⟨d, List.mem_append_left _ hd, hknown⟩

theorem knows_mapWhere {p : InviteCode → Bool} {f : InviteCode → InviteCode}
    (hid : ∀ d, (f d).id = d.id) (htotal : ∀ d, (f d).usesTotal = d.usesTotal)
    (huses : ∀ d, p d = true → c.lock = some d.id → (f d).usesRemaining = d.usesRemaining)
    (h : c.Knows codes) : c.Knows (mapWhere p f codes) := by
  cases c with
  | finding | done => trivial
  | starting row =>
    obtain ⟨d, hd, hknown⟩ := h
    refine ⟨if p d then f d else d, List.mem_map_of_mem hd, ?_⟩
    split_ifs
    · rwa [hid, htotal]
    · exact hknown
  | inserting row =>
    obtain ⟨d, hd, hrow, huse⟩ := h
    refine ⟨if p d then f d else d, List.mem_map_of_mem hd, ?_⟩
    split_ifs with hp
    · rw [hid, huses d hp (congrArg some hrow.symm)]
      exact ⟨hrow, huse⟩
    · exact ⟨hrow, huse⟩

end Knows

section Steps

variable {before : String → UserId → Nat} {s s' : State} {i : Nat} {c c' : Call}

/-- What `State.find` can answer. -/
theorem find_cases (code : String) (userId : UserId) (now : Timestamp) :
    (∃ message, s.find code userId now = .done userId (.refused message)) ∨
      ∃ row ∈ s.codes, s.find code userId now = .starting row userId := by
  rw [State.find]
  cases hrow : s.codes.find? fun c => c.code = code with
  | none => exact .inl ⟨_, rfl⟩
  | some row =>
    dsimp only
    cases evaluateInviteCode row _ now with
    | some message => exact .inl ⟨message, rfl⟩
    | none => exact .inr ⟨row, List.mem_of_find?_eq_some hrow, rfl⟩

/-- A call that has just started is not done well, and knows nothing. -/
theorem startRedeem_cases (toUpperCase : String → String) (rawCode : String) (userId : UserId) :
    startRedeem toUpperCase rawCode userId = .done userId (.refused invalidCodeMessage) ∨
      ∃ code, startRedeem toUpperCase rawCode userId = .finding code userId := by
  simp only [startRedeem]
  generalize normalizeInviteCode toUpperCase rawCode = code
  rcases eq_or_ne code "" with hempty | hne
  · exact .inl (if_pos hempty)
  · exact .inr ⟨code, if_neg hne⟩

variable (hs : Inv before s)

include hs

section Moves

variable (hcall : s.calls[i]? = some c) (hc : ∀ codeId userId, c.succeeded codeId userId = false)

include hcall hc

/-- A statement that writes nothing. -/
theorem inv_set (hc' : ∀ codeId userId, c'.succeeded codeId userId = false)
    (hknows : c'.Knows s.codes)
    (hlock : ∀ id, c'.lock = some id → c.lock = none ∧ id ∉ s.calls.filterMap Call.lock) :
    Inv before { s with calls := s.calls.set i c' } where
  sound := hs.sound
  knows := forall_mem_set hs.knows hknows
  locks := by
    cases hlock' : c'.lock with
    | none => exact hs.locks.sublist (filterMap_set_sublist hcall (.inr hlock'))
    | some id =>
      obtain ⟨hnone, hfree⟩ := hlock id hlock'
      exact (perm_filterMap_set_take hcall hnone hlock').nodup_iff.mpr
        (List.nodup_cons.mpr ⟨hfree, hs.locks⟩)
  counted codeId userId := by
    rw [countP_set_of_false hcall (hc codeId userId), hc', if_neg Bool.false_ne_true, Nat.add_zero]
    exact hs.counted codeId userId

/-- A call that ends without a redemption. -/
theorem inv_set_done {userId : UserId} {result : RedeemResult}
    (hresult : ∀ id label, result ≠ .ok id label) :
    Inv before { s with calls := s.calls.set i (.done userId result) } := by
  refine inv_set hs hcall hc (fun codeId u => ?_) trivial fun id hlock => nomatch hlock
  cases result with
  | ok id label => exact absurd rfl (hresult id label)
  | refused | thrown => rfl

/-- The insert ends the call, and counts as a redemption if it succeeds. -/
theorem inv_insert {row : InviteCode} {userId : UserId} {now : Timestamp} {rowId : String}
    {codes : List InviteCode}
    (hsound : Consistent (s.redemptions ++ [⟨rowId, row.id, userId, now⟩]) →
      Sound codes (s.redemptions ++ [⟨rowId, row.id, userId, now⟩]))
    (hknows : ∀ d ∈ s.calls, (∀ id, d.lock = some id → c.lock ≠ some id) → d.Knows codes) :
    Inv before (s.insert i row userId now rowId codes) := by
  rw [State.insert]
  cases hcreate : create (⟨rowId, row.id, userId, now⟩ : InviteRedemption) s.redemptions with
  | error e => exact inv_set_done hs hcall hc nofun
  | ok redemptions =>
    obtain ⟨hcons, rfl⟩ := create_eq_ok_iff.mp hcreate
    refine ⟨hsound hcons, forall_mem_set_of_nodup hcall hs.locks hknows trivial,
      hs.locks.sublist (filterMap_set_sublist hcall (.inr rfl)), fun codeId u => ?_⟩
    have hcounted := hs.counted codeId u
    rw [countP_set_of_false hcall (hc codeId u), redemptionCountOf, List.countP_append,
      List.countP_singleton]
    simp only [Call.succeeded, Bool.and_eq_true, decide_eq_true_eq]
    rw [redemptionCountOf] at hcounted
    omega

end Moves

theorem inv_advance {now : Timestamp} {rowId : String} (h : s.advance i now rowId = some s') :
    Inv before s' := by
  rw [State.advance] at h
  cases hcall : s.calls[i]? with
  | none => simp [hcall] at h
  | some c =>
    have hknows := hs.knows c (List.mem_of_getElem? hcall)
    cases c with
    | done => simp [hcall] at h
    | finding code userId =>
      simp only [hcall, Option.some.injEq] at h
      subst h
      rcases find_cases (s := s) code userId now with ⟨message, hfind⟩ | ⟨row, hrow, hfind⟩
      · rw [hfind]
        exact inv_set_done hs hcall (fun _ _ => rfl) nofun
      · rw [hfind]
        exact inv_set hs hcall (fun _ _ => rfl) (fun _ _ => rfl) ⟨row, hrow, rfl, rfl⟩ nofun
    | starting row userId =>
      obtain ⟨d, hd, hid, htotal⟩ := hknows
      simp only [hcall] at h
      split_ifs at h with hlimited hlocked huse <;> cases h
      · -- the update finds a use
        obtain ⟨e, he, hmatch⟩ := List.any_eq_true.mp huse
        obtain ⟨heid, -, hleft⟩ := of_decide_eq_true hmatch
        refine inv_set hs hcall (fun _ _ => rfl) (fun _ _ => rfl) ⟨e, he, heid, hleft⟩ ?_
        rintro id ⟨⟩
        exact ⟨rfl, hlocked⟩
      · exact inv_set_done hs hcall (fun _ _ => rfl) nofun
      · refine inv_insert hs hcall (fun _ _ => rfl)
          (fun hcons => hs.sound.insert hcons hd hid ?_) fun e he _ => hs.knows e he
        rwa [htotal]
    | inserting row userId =>
      simp only [hcall, Option.some.injEq] at h
      subst h
      obtain ⟨d, hd, hid, hleft⟩ := hknows
      refine inv_insert hs hcall (fun _ _ => rfl)
        (fun hcons => hs.sound.decrement_insert hcons hd hid hleft) fun e he hother => ?_
      -- nobody else holds the lock of the code
      refine knows_mapWhere (fun _ => rfl) (fun _ => rfl) (fun e' hp hlock => ?_) (hs.knows e he)
      exact absurd (congrArg some (of_decide_eq_true hp).symm) (hother e'.id hlock)

theorem inv_fail (h : s.fail i = some s') : Inv before s' := by
  rw [State.fail] at h
  cases hcall : s.calls[i]? with
  | none => simp [hcall] at h
  | some c =>
    cases c with
    | done => simp [hcall] at h
    | finding | starting | inserting =>
      simp only [hcall, Option.some.injEq] at h
      subst h
      exact inv_set_done hs hcall (fun _ _ => rfl) nofun

theorem inv_redeem (hlock : c.lock = none) (hknows : c.Knows s.codes)
    (hc : ∀ codeId userId, c.succeeded codeId userId = false) :
    Inv before { s with calls := s.calls ++ [c] } where
  sound := hs.sound
  knows d hd := by
    rcases List.mem_append.mp hd with hold | hnew
    · exact hs.knows d hold
    · rwa [List.mem_singleton.mp hnew]
  locks := by
    rw [List.filterMap_append, List.filterMap_cons_none hlock, List.filterMap_nil, List.append_nil]
    exact hs.locks
  counted codeId userId := by
    rw [List.countP_append, List.countP_singleton, hc, if_neg Bool.false_ne_true, Nat.add_zero]
    exact hs.counted codeId userId

theorem inv_step {toUpperCase : String → String} {a : Action}
    (h : step toUpperCase s a = some s') : Inv before s' := by
  cases a with
  | createInviteCode id code label usesTotal expiresAt =>
    obtain ⟨codes, hcodes, rfl⟩ := Option.map_eq_some_iff.mp h
    cases hcreate : create ⟨id, code, label, usesTotal, usesTotal, expiresAt, none⟩ s.codes with
    | error e => simp [hcreate, Except.toOption] at hcodes
    | ok codes' =>
      rw [hcreate] at hcodes
      cases hcodes
      refine ⟨hs.sound.createInviteCode hcreate, fun c hc => ?_, hs.locks, hs.counted⟩
      obtain ⟨-, rfl⟩ := create_eq_ok_iff.mp hcreate
      exact knows_append (hs.knows c hc)
  | revokeInviteCode id now =>
    simp only [step] at h
    split_ifs at h with hlocked
    cases h
    exact ⟨hs.sound.revoke id now, fun c hc => knows_mapWhere (fun _ => rfl) (fun _ => rfl)
      (fun _ _ _ => rfl) (hs.knows c hc), hs.locks, hs.counted⟩
  | redeem rawCode userId =>
    cases h
    rcases startRedeem_cases toUpperCase rawCode userId with hstart | ⟨code, hstart⟩
    · rw [hstart]
      exact inv_redeem hs rfl trivial fun _ _ => rfl
    · rw [hstart]
      exact inv_redeem hs rfl trivial fun _ _ => rfl
  | advance i now rowId => exact inv_advance hs h
  | fail i => exact inv_fail hs h

end Steps

/-- In every run of calls, from tables that agree, each limited code has the uses left that its
rows leave of the total, and never fewer than none; and an account redeems a code once, the rows of
the start counted. -/
theorem budget_of_run {toUpperCase : String → String} {s₀ s : State} {as : List Action}
    (hsound : Sound s₀.codes s₀.redemptions) (hcalls : s₀.calls = [])
    (h : run (step toUpperCase) s₀ as = some s) :
    (∀ c ∈ s.codes, 0 < c.usesTotal →
      c.usesRemaining = c.usesTotal - redemptionCount s.redemptions c.id ∧ 0 ≤ c.usesRemaining) ∧
      ∀ codeId userId, s.calls.countP (Call.succeeded codeId userId) +
        redemptionCountOf s₀.redemptions codeId userId ≤ 1 := by
  have hinit : Inv (redemptionCountOf s₀.redemptions) s₀ := by
    refine ⟨hsound, ?_, ?_, fun codeId userId => ?_⟩
    · simp [hcalls]
    · simp [hcalls]
    · rw [hcalls, List.countP_nil, Nat.zero_add]
  have hinv := run_invariant_always (Inv (redemptionCountOf s₀.redemptions))
    (fun _ _ _ hs hstep => inv_step hs hstep) hinit h
  refine ⟨hinv.sound.budgeted, fun codeId userId => ?_⟩
  rw [hinv.counted]
  exact redemptionCountOf_le_one hinv.sound.unique codeId userId

/-- Two accounts race for the one use of a code, and one of them has called twice. -/
def raceForOneUse : List Action :=
  [.createInviteCode "c" "ABCD" "Launch" 1 none, .redeem " ABCD" "u", .redeem "ABCD" "u",
    .redeem "ABCD" "v", .advance 0 0 "r", .advance 1 0 "r", .advance 2 0 "r", .advance 2 0 "r",
    .fail 2, .advance 1 1 "r", .advance 1 2 "r", .advance 0 3 "r"]

theorem raceForOneUse_budget : ∃ s, run (step id) {} raceForOneUse = some s ∧
    s.calls = [.done "u" (.refused invalidCodeMessage), .done "u" (.ok "c" "Launch"),
      .done "v" .thrown] ∧
    (∀ c ∈ s.codes, 0 < c.usesTotal → c.usesRemaining =
      c.usesTotal - redemptionCount s.redemptions c.id ∧ 0 ≤ c.usesRemaining) ∧
    s.calls.countP (Call.succeeded "c" "u") ≤ 1 := by
  refine exists_run_and (by decide +kernel) fun s hrun => ?_
  have hbudget := budget_of_run Sound.nil rfl hrun
  exact ⟨hbudget.1, hbudget.2 "c" "u"⟩

end Minister.InviteCodes

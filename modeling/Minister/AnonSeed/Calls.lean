import Minister.AnonSeed.Enrollment
import Minister.Transition.Pool

/-!
# Private identities, one statement at a time

The actions of a private identity read, decide, and write in a later statement that does not look
again, so that another action of the same user can come between. Here the calls of one user run
statement by statement, and it is said once what a step can do.

A call begins with its first read, since nothing that it checks before depends on the tables, and
a statement that fails is a call that never goes on.
-/

namespace Minister.SeedCalls

open Relational Transition AnonSeed
open Credentials (QuarantineRefusal)

/-! ### Statements -/

inductive Request
  | beginAnonSeedEnrollment (limited : Option Nat)
  | confirmSeedBackup (limited : Option Nat)
  | putSeedBlob (limited : Option Nat) (input : PutBlobInput)
  | deleteSeedBlob (limited : Option Nat) (credentialId : String)
  | resetAnonSeed (limited : Option Nat) (confirmPhrase : Option String)
  | rekeyAnonSeed (limited : Option Nat) (session : Recovery.Session)
      (gate : Option QuarantineRefusal) (confirmPhrase : Option String)
  deriving DecidableEq, Repr

/-- A call, by the statement it has reached and with what it has read. -/
inductive Call
  | stamping (existing : Option Enrollment)
  | confirming (existing : Enrollment)
  | finding (input : PutBlobInput) (enrollment : Enrollment)
  | counting (input : PutBlobInput) (enrollment : Enrollment)
  | upserting (input : PutBlobInput) (enrollment : Enrollment)
  | resetting
  /-- A re-key that has passed the cooldown. -/
  | reading
  | rekeying
  | auditing (bumpedAt : Timestamp)
  | rekeyed (bumpedAt auditedAt : Timestamp)
  | done
  | refused (refusal : Refusal)
  deriving DecidableEq, Repr

structure State where
  now : Timestamp := 0
  server : Server := {}
  calls : List Call := []
  deriving DecidableEq, Repr

inductive Action
  | tick (ms : Nat)
  | call (request : Request)
  | advance (i : Nat)
  deriving DecidableEq, Repr

/-- The first statement of a call. Where it is the only read, it decides as the action would. -/
def State.first (env : Env) (userId : UserId) (s : State) :
    Request → Except Refusal (Server × Call)
  | .beginAnonSeedEnrollment limited => do
    let _ ← AnonSeed.beginAnonSeedEnrollment env limited s.now userId s.server
    return (s.server, .stamping (s.server.findEnrollment userId))
  | .confirmSeedBackup limited => do
    let _ ← AnonSeed.confirmSeedBackup env limited s.now userId s.server
    match s.server.findEnrollment userId with
    | some existing =>
      return (s.server, if existing.backupConfirmedAt = none then .confirming existing else .done)
    | none => return (s.server, .done)
  | .putSeedBlob limited input => do
    let enrollment ← putSeedBlobChecks env limited userId input s.server
    return (s.server, .finding input enrollment)
  | .deleteSeedBlob limited credentialId => do
    let server ← AnonSeed.deleteSeedBlob env limited userId credentialId s.server
    return (server, .done)
  | .resetAnonSeed limited confirmPhrase => do
    let _ ← AnonSeed.resetAnonSeed env limited userId confirmPhrase s.server
    return (s.server, .resetting)
  | .rekeyAnonSeed limited session gate confirmPhrase => do
    rekeyChecks env limited s.now userId session gate confirmPhrase s.server
    return (s.server, .reading)

/-- The next statement of a call. -/
def State.next (userId : UserId) (s : State) : Call → Option (Server × Call)
  | .stamping _ => some (s.server.stampGenerated userId s.now, .done)
  | .confirming _ =>
    some (s.server.updateEnrollment userId fun row =>
      { row with backupConfirmedAt := some s.now }, .done)
  | .finding input enrollment =>
    if s.server.blob.any (SeedBlob.isFor userId input.credentialId) then
      some (s.server, .upserting input enrollment)
    else some (s.server, .counting input enrollment)
  | .counting input enrollment =>
    if (blobsOf userId s.server).length < maxBlobsPerUser then
      some (s.server, .upserting input enrollment)
    else some (s.server, .refused
      { error := s!"At most {maxBlobsPerUser} devices can store your Private Identity." })
  | .upserting input _ => some (s.server.upsertBlob (PutBlobInput.blob userId input), .done)
  | .resetting => some (bumpEpochAndPurge userId s.server, .done)
  | .reading =>
    if (s.server.findEnrollment userId).any fun row => row.backupConfirmedAt ≠ none then
      some (s.server, .rekeying)
    else some (s.server, .refused { error := "You have no active Private Identity to re-key." })
  | .rekeying => some (bumpEpochAndPurge userId s.server, .auditing s.now)
  | .auditing bumpedAt =>
    some ({ s.server with rekey := s.server.rekey ++ [⟨userId, s.now⟩] }, .rekeyed bumpedAt s.now)
  | .rekeyed _ _ | .done | .refused _ => none

def step (env : Env) (userId : UserId) (s : State) : Action → Option State
  | .tick ms => some { s with now := s.now + ms }
  | .call request =>
    match s.first env userId request with
    | .ok (server, c) => some { s with server, calls := s.calls ++ [c] }
    | .error refusal => some { s with calls := s.calls ++ [.refused refusal] }
  | .advance i => do
    let c ← s.calls[i]?
    let (server, c') ← s.next userId c
    return { s with server, calls := s.calls.set i c' }

/-! ### What a step can do -/

/-- What a first statement that is not refused finds and does. -/
inductive Begins (userId : UserId) (s : State) : Request → Server → Call → Prop
  | stamping (limited : Option Nat)
      (hnone : ∀ row ∈ s.server.findEnrollment userId, row.seedGeneratedAt = none) :
      Begins userId s (.beginAnonSeedEnrollment limited) s.server
        (.stamping (s.server.findEnrollment userId))
  | confirming (limited : Option Nat) (existing : Enrollment)
      (hread : s.server.findEnrollment userId = some existing)
      (hgenerated : existing.seedGeneratedAt ≠ none) :
      Begins userId s (.confirmSeedBackup limited) s.server (.confirming existing)
  | answered (limited : Option Nat) : Begins userId s (.confirmSeedBackup limited) s.server .done
  | finding (limited : Option Nat) (input : PutBlobInput) (enrollment : Enrollment)
      (hconfirmed : enrollment.backupConfirmedAt ≠ none) :
      Begins userId s (.putSeedBlob limited input) s.server (.finding input enrollment)
  | deletes (limited : Option Nat) (credentialId : String) :
      Begins userId s (.deleteSeedBlob limited credentialId)
        { s.server with blob := deleteMany (SeedBlob.isFor userId credentialId) s.server.blob }
        .done
  | resetting (limited : Option Nat) (confirmPhrase : Option String) :
      Begins userId s (.resetAnonSeed limited confirmPhrase) s.server .resetting
  | reading (limited : Option Nat) (session : Recovery.Session) (gate : Option QuarantineRefusal)
      (confirmPhrase : Option String)
      (hcooldown : ∀ r ∈ s.server.rekey, r.userId = userId →
        r.createdAt + rekeyCooldownMs ≤ s.now) :
      Begins userId s (.rekeyAnonSeed limited session gate confirmPhrase) s.server .reading

/-- What a later statement does. -/
inductive Moves (userId : UserId) (s : State) : Call → Server → Call → Prop
  | stamps (existing : Option Enrollment) :
      Moves userId s (.stamping existing) (s.server.stampGenerated userId s.now) .done
  | confirms (existing : Enrollment) :
      Moves userId s (.confirming existing) (s.server.updateEnrollment userId fun row =>
        { row with backupConfirmedAt := some s.now }) .done
  | finds (input : PutBlobInput) (enrollment : Enrollment) (c : Call)
      (hc : c = .counting input enrollment ∨ c = .upserting input enrollment) :
      Moves userId s (.finding input enrollment) s.server c
  | counts (input : PutBlobInput) (enrollment : Enrollment) :
      Moves userId s (.counting input enrollment) s.server (.upserting input enrollment)
  | upserts (input : PutBlobInput) (enrollment : Enrollment) :
      Moves userId s (.upserting input enrollment)
        (s.server.upsertBlob (PutBlobInput.blob userId input)) .done
  | resets : Moves userId s .resetting (bumpEpochAndPurge userId s.server) .done
  | reads : Moves userId s .reading s.server .rekeying
  | rekeys : Moves userId s .rekeying (bumpEpochAndPurge userId s.server) (.auditing s.now)
  | audits (bumpedAt : Timestamp) :
      Moves userId s (.auditing bumpedAt)
        { s.server with rekey := s.server.rekey ++ [⟨userId, s.now⟩] } (.rekeyed bumpedAt s.now)
  | refuses (c : Call) (refusal : Refusal) : Moves userId s c s.server (.refused refusal)

section Steps

variable {env : Env} {userId : UserId} {s s' : State} {a : Action}

theorem le_of_passCooldown {now : Timestamp} {server : Server} {u : Unit}
    (h : passCooldown now userId server = .ok u) :
    ∀ r ∈ server.rekey, r.userId = userId → r.createdAt + rekeyCooldownMs ≤ now := by
  intro r hr huser
  unfold passCooldown at h
  dsimp only at h
  split at h
  · cases h
  · rename_i hnone
    rw [List.max?_eq_none_iff, List.map_eq_nil_iff] at hnone
    by_contra hlt
    have hrecent : now - rekeyCooldownMs < r.createdAt := by
      rw [not_le] at hlt
      exact Int.sub_right_lt_of_lt_add hlt
    have hmem : r ∈ findMany (fun r => r.userId = userId ∧ now - rekeyCooldownMs < r.createdAt)
        server.rekey := mem_findMany.mpr ⟨hr, decide_eq_true ⟨huser, hrecent⟩⟩
    rw [hnone] at hmem
    cases hmem

theorem confirmed_of_putSeedBlobChecks {limited : Option Nat} {input : PutBlobInput}
    {server : Server} {enrollment : Enrollment}
    (h : putSeedBlobChecks env limited userId input server = .ok enrollment) :
    enrollment.backupConfirmedAt ≠ none := by
  replace h := ok_of_bind (ok_of_bind (ok_of_bind (ok_of_bind h)))
  split at h
  · rename_i hread
    cases h
    exact of_decide_eq_true (Option.filter_eq_some_iff.mp hread).2
  · cases h

theorem begins_of_first {request : Request} {server : Server} {c : Call}
    (h : s.first env userId request = .ok (server, c)) : Begins userId s request server c := by
  cases request with
  | beginAnonSeedEnrollment limited =>
    obtain ⟨result, hbegin, hdone⟩ := bind_eq_ok_iff.mp h
    cases hdone
    refine .stamping limited fun row hrow => ?_
    replace hbegin := ok_of_bind (ok_of_bind hbegin)
    obtain ⟨_, hnone, -⟩ := bind_eq_ok_iff.mp hbegin
    rw [require_eq_ok_iff, hrow, Option.all_some, decide_eq_true_eq] at hnone
    exact hnone
  | confirmSeedBackup limited =>
    obtain ⟨result, hconfirm, hdone⟩ := bind_eq_ok_iff.mp h
    replace hconfirm := ok_of_bind (ok_of_bind hconfirm)
    obtain ⟨_, hgenerated, -⟩ := bind_eq_ok_iff.mp hconfirm
    rw [require_eq_ok_iff] at hgenerated
    split at hdone
    · rename_i existing hread
      rw [hread, Option.any_some, decide_eq_true_eq] at hgenerated
      cases hdone
      split_ifs
      · exact .confirming limited existing hread hgenerated
      · exact .answered limited
    · cases hdone
      exact .answered limited
  | putSeedBlob limited input =>
    obtain ⟨enrollment, hchecks, hdone⟩ := bind_eq_ok_iff.mp h
    cases hdone
    exact .finding limited input enrollment (confirmed_of_putSeedBlobChecks hchecks)
  | deleteSeedBlob limited credentialId =>
    obtain ⟨server, hdelete, hdone⟩ := bind_eq_ok_iff.mp h
    replace hdelete := ok_of_bind (ok_of_bind (ok_of_bind hdelete))
    cases hdelete
    cases hdone
    exact .deletes limited credentialId
  | resetAnonSeed limited confirmPhrase =>
    obtain ⟨_, -, hdone⟩ := bind_eq_ok_iff.mp h
    cases hdone
    exact .resetting limited confirmPhrase
  | rekeyAnonSeed limited session gate confirmPhrase =>
    obtain ⟨_, hchecks, hdone⟩ := bind_eq_ok_iff.mp h
    cases hdone
    replace hchecks := ok_of_bind (ok_of_bind (ok_of_bind hchecks))
    replace hchecks := ok_of_bind (ok_of_bind (ok_of_bind hchecks))
    exact .reading limited session gate confirmPhrase (le_of_passCooldown hchecks)

theorem moves_of_next {c c' : Call} {server : Server}
    (h : s.next userId c = some (server, c')) : Moves userId s c server c' := by
  cases c with
  | stamping existing =>
    cases h
    exact .stamps existing
  | confirming existing =>
    cases h
    exact .confirms existing
  | finding input enrollment =>
    simp only [State.next] at h
    split_ifs at h <;> cases h
    · exact .finds input enrollment _ (.inr rfl)
    · exact .finds input enrollment _ (.inl rfl)
  | counting input enrollment =>
    simp only [State.next] at h
    split_ifs at h <;> cases h
    · exact .counts input enrollment
    · exact .refuses _ _
  | upserting input enrollment =>
    cases h
    exact .upserts input enrollment
  | resetting =>
    cases h
    exact .resets
  | reading =>
    simp only [State.next] at h
    split_ifs at h <;> cases h
    · exact .reads
    · exact .refuses _ _
  | rekeying =>
    cases h
    exact .rekeys
  | auditing bumpedAt =>
    cases h
    exact .audits bumpedAt
  | rekeyed bumpedAt auditedAt => cases h
  | done => cases h
  | refused refusal => cases h

/-- What a step can do. -/
inductive Turn (userId : UserId) (s : State) : Action → State → Prop
  | tick (ms : Nat) : Turn userId s (.tick ms) { s with now := s.now + ms }
  | refuse (request : Request) (refusal : Refusal) :
      Turn userId s (.call request) { s with calls := s.calls ++ [.refused refusal] }
  | begins (request : Request) (server : Server) (c : Call)
      (hbegins : Begins userId s request server c) :
      Turn userId s (.call request) { s with server, calls := s.calls ++ [c] }
  | moves (i : Nat) (c : Call) (server : Server) (c' : Call) (hcall : s.calls[i]? = some c)
      (hmoves : Moves userId s c server c') :
      Turn userId s (.advance i) { s with server, calls := s.calls.set i c' }

theorem turn_of_step (h : step env userId s a = some s') : Turn userId s a s' := by
  cases a with
  | tick ms =>
    cases h
    exact .tick ms
  | call request =>
    simp only [step] at h
    split at h
    · rename_i server c hfirst
      cases h
      exact .begins request server c (begins_of_first hfirst)
    · cases h
      exact .refuse request _
  | advance i =>
    simp only [step, Option.bind_eq_bind, Option.bind_eq_some_iff] at h
    obtain ⟨c, hcall, ⟨server, c'⟩, hnext, hdone⟩ := h
    cases hdone
    exact .moves i c server c' hcall (moves_of_next hnext)

end Steps

/-! ### Calls that are left alone -/

/-- The action as a whole. -/
def Request.act (env : Env) (userId : UserId) (now : Timestamp) (server : Server) :
    Request → Except Refusal Server
  | .beginAnonSeedEnrollment limited =>
    Prod.snd <$> AnonSeed.beginAnonSeedEnrollment env limited now userId server
  | .confirmSeedBackup limited =>
    Prod.snd <$> AnonSeed.confirmSeedBackup env limited now userId server
  | .putSeedBlob limited input => AnonSeed.putSeedBlob env limited userId input server
  | .deleteSeedBlob limited credentialId =>
    AnonSeed.deleteSeedBlob env limited userId credentialId server
  | .resetAnonSeed limited confirmPhrase =>
    Prod.snd <$> AnonSeed.resetAnonSeed env limited userId confirmPhrase server
  | .rekeyAnonSeed limited session gate confirmPhrase =>
    Prod.snd <$> AnonSeed.rekeyAnonSeed env limited now userId session gate confirmPhrase server

/-- The rest of a call with nothing in between; three statements are enough. -/
def State.finish (userId : UserId) (s : State) : Nat → Call → Except Refusal Server
  | _, .refused refusal => .error refusal
  | 0, _ => .ok s.server
  | n + 1, c =>
    match s.next userId c with
    | some (server, c') => State.finish userId { s with server } n c'
    | none => .ok s.server

section Alone

variable {env : Env} {userId : UserId} {s : State}

/-- A call that stores a copy, from where it has found the user active. -/
theorem finish_finding (input : PutBlobInput) (enrollment : Enrollment) :
    s.finish userId 3 (.finding input enrollment) = (do
      require (s.server.blob.any (SeedBlob.isFor userId input.credentialId) ||
          (blobsOf userId s.server).length < maxBlobsPerUser)
        { error := s!"At most {maxBlobsPerUser} devices can store your Private Identity." }
      return s.server.upsertBlob (PutBlobInput.blob userId input)) := by
  by_cases hfound : s.server.blob.any (SeedBlob.isFor userId input.credentialId) = true
  · simp only [State.finish, State.next, hfound, if_true, Bool.true_or]
    rfl
  · rw [Bool.eq_false_iff.mpr hfound]
    by_cases hroom : (blobsOf userId s.server).length < maxBlobsPerUser
    · simp only [State.finish, State.next, if_neg hfound, hroom]
      rfl
    · simp only [State.finish, State.next, if_neg hfound, hroom]
      rfl

/-- A call that is left alone does what the action does. -/
theorem act_eq_finish (request : Request) :
    request.act env userId s.now s.server = (do
      let (server, c) ← s.first env userId request
      State.finish userId { s with server } 3 c) := by
  cases request with
  | beginAnonSeedEnrollment limited =>
    simp only [Request.act, State.first]
    cases hbegin : AnonSeed.beginAnonSeedEnrollment env limited s.now userId s.server with
    | error refusal => rfl
    | ok result =>
      obtain ⟨-, -, hserver⟩ := begin_eq_ok hbegin
      exact congrArg Except.ok hserver
  | confirmSeedBackup limited =>
    simp only [Request.act, State.first, AnonSeed.confirmSeedBackup, map_bind, bind_assoc]
    refine bind_congr fun _ => bind_congr fun _ => ?_
    cases hrow : s.server.findEnrollment userId with
    | none => rfl
    | some existing =>
      refine bind_congr fun _ => ?_
      by_cases hconfirmed : existing.backupConfirmedAt = none
      · simp [hconfirmed, State.finish, State.next, pure, Except.pure]
      · simp [hconfirmed, State.finish, State.next, pure, Except.pure]
  | putSeedBlob limited input =>
    simp only [Request.act, State.first, AnonSeed.putSeedBlob, bind_assoc]
    exact bind_congr fun enrollment => (finish_finding input enrollment).symm
  | deleteSeedBlob limited credentialId =>
    simp only [Request.act, State.first]
    cases AnonSeed.deleteSeedBlob env limited userId credentialId s.server <;> rfl
  | resetAnonSeed limited confirmPhrase =>
    simp only [Request.act, State.first, AnonSeed.resetAnonSeed, map_bind, bind_assoc]
    refine bind_congr fun _ => bind_congr fun _ => bind_congr fun _ => bind_congr fun _ => ?_
    rfl
  | rekeyAnonSeed limited session gate confirmPhrase =>
    simp only [Request.act, State.first, AnonSeed.rekeyAnonSeed, map_bind, bind_assoc]
    refine bind_congr fun _ => ?_
    simp only [pure_bind, State.finish, State.next]
    split_ifs with hactive
    · rw [hactive]
      rfl
    · rw [Bool.eq_false_iff.mpr hactive]
      rfl

end Alone

/-! ### Samples -/

/-- An environment with private identities switched on. -/
def enabledEnv : Env where
  hkdfSha256 := fun ikm _ _ _ => ikm
  base58checkDecode := fun _ => none
  toLowerCase := id
  anonIdentityEnabled := true

/-- A root is generated and its backup is confirmed; `n` calls came before. -/
def enrolls (n : Nat) : List Action :=
  [.call (.beginAnonSeedEnrollment none), .advance n, .call (.confirmSeedBackup none),
    .advance (n + 1)]

end Minister.SeedCalls

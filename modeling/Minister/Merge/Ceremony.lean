import Mathlib.Data.Option.Basic
import Minister.Merge.Interleaving
import Minister.Transition.Pool

/-!
# The merge ceremony

A merge is agreed on in three actions. `startMerge`, in the survivor's session,
mails a link to the donor; its marker names both accounts. `completeDonorLink`
consumes the marker and issues a donor proof. `confirmMerge` consumes the proof and
runs the merge in the session that presents it. Each action is a sequence of
database statements, and other calls take theirs in between.

The link is bound to the pair, but the proof only to the donor. Whoever presents it
becomes the survivor, so a merge is authorised by the donor exactly as long as
proofs are presented by the accounts whose links they came from.

Signatures cannot be forged: a proof verifies when it is one of those issued.
`randomBytes` does not repeat. Addresses are taken as `startMerge` normalises them.
The rate limiter and the quarantine gate are read once per call, as given verdicts;
mail and audit rows are left out.
-/

namespace Minister.Ceremony

open Relational Transition

/-! ### Sessions and checks -/

/-- The claims of a session cookie that the actions read. -/
structure SignIn where
  userId : UserId
  sessionGeneration : Option Nat
  aal : Option Nat
  recovered : Bool
  deriving DecidableEq, Repr

structure Refusal where
  error : String
  stepUp : Bool := false
  deriving DecidableEq, Repr

/-- The session, unless it is revoked or its account is banned or tombstoned. -/
def getCurrentSession (signIn : Option SignIn) (t : List User) : Option SignIn := do
  let session ← signIn
  guard (session.userId ≠ "")
  let fresh ← findUser session.userId t
  guard (fresh.sessionGeneration = session.sessionGeneration.getD 0)
  guard (fresh.isBanned = false)
  guard (fresh.mergedIntoUserId = none)
  return session

/-- A passkey session that is not a recovered one. -/
def passkeySession (stepUpText recoveredText : String) (signIn : Option SignIn) (t : List User) :
    Except Refusal UserId :=
  match getCurrentSession signIn t with
  | none => .error ⟨"Not signed in", false⟩
  | some session =>
    if session.aal.getD 0 < 2 then .error ⟨stepUpText, true⟩
    else if session.recovered then .error ⟨recoveredText, false⟩
    else .ok session.userId

/-- What `startMerge` checks before it looks for the donor. -/
def startMergeChecks (signIn : Option SignIn) (allowed : Bool) (quarantine : Option String)
    (email : String) (t : List User) : Except Refusal UserId :=
  match passkeySession "Merging accounts requires signing in with a passkey first."
    "A recovered session can't start an account merge. Add a passkey first." signIn t with
  | .error refusal => .error refusal
  | .ok survivorUserId =>
    if allowed = false then .error ⟨"Too many merge requests. Try again later.", false⟩
    else
      match quarantine with
      | some message => .error ⟨message, false⟩
      | none =>
        if '@' ∉ email.toList then
          .error ⟨"Enter the email on the account you want to merge in.", false⟩
        else .ok survivorUserId

/-- What `confirmMerge` checks before it consumes the proof. -/
def confirmMergeChecks (signIn : Option SignIn) (quarantine : Option String) (t : List User) :
    Except Refusal UserId :=
  match passkeySession "Completing a merge requires signing in with a passkey first."
    "A recovered session can't complete an account merge. Add a passkey first." signIn t with
  | .error refusal => .error refusal
  | .ok survivorUserId =>
    match quarantine with
    | some message => .error ⟨message, false⟩
    | none => .ok survivorUserId

/-- The live account with this verified address. -/
def resolveVerifiedUserIdByEmail (email : String) (db : Db) : Option UserId := do
  let owned ← db.userEmail.find? fun e => e.email = email
  guard owned.verifiedAt.isSome
  let u ← findUser owned.userId db.user
  guard (u.isBanned = false ∧ u.mergedIntoUserId = none)
  return u.id

/-! ### Links and proofs -/

/-- The marker of a link names both accounts. -/
def linkIdentifier (survivorUserId donorUserId : UserId) : String :=
  "merge-donor-link:" ++ survivorUserId ++ ":" ++ donorUserId

/-- `MERGE_LINK_TTL_MS`. -/
def mergeLinkTtlMs : Int := 15 * 60 * 1000

/-- `CONSUMPTION_IDENTIFIER`. -/
def donorProofIdentifier : String := "donor-proof-ticket"

/-- `TTL_SECONDS`. -/
def donorProofTtlSeconds : Int := 5 * 60

/-- What a signed donor proof says; `exp` is in seconds. -/
structure Ticket where
  donorUserId : UserId
  jti : String
  exp : Int
  deriving DecidableEq, Repr

/-! ### Calls in progress -/

/-- Where a call stands. -/
inductive Call
  /-- `startMerge`, past its checks. -/
  | starting (survivorUserId : UserId) (email : String)
  /-- `startMerge`, with a donor other than the survivor. -/
  | resolved (survivorUserId donorUserId : UserId)
  /-- `completeDonorLink`, having consumed the link with this token. -/
  | linkConsumed (survivorUserId donorUserId : UserId) (link : String)
  | donorEligible (survivorUserId donorUserId : UserId) (link : String)
  /-- `confirmMerge`, past its session checks. -/
  | confirming (survivorUserId : UserId) (ticket : Ticket) (intendedDonorUserId : UserId)
  /-- `confirmMerge`, having consumed the proof with this `jti`. -/
  | proven (survivorUserId donorUserId : UserId) (jti : String)
  | survivorEligible (survivorUserId donorUserId : UserId) (jti : String)
  | eligible (survivorUserId donorUserId : UserId) (jti : String)
  /-- `mergeAccounts`, before the attempt with this number. -/
  | merging (survivorUserId donorUserId : UserId) (jti : String)
      (donorSubByClient : List SubAtClient) (attempt : Nat)
  /-- `mergeAccounts`, after its transaction. -/
  | merged (survivorUserId : UserId) (result : MergeTxResult)
  | returned (refusal : Option Refusal)
  | thrown

/-- What happened in a run so far. -/
inductive Event
  /-- The survivor's own `startMerge` created a link. -/
  | linkMinted (survivorUserId donorUserId : UserId) (link : String)
  /-- `completeDonorLink`, having consumed the link, issued a proof. -/
  | proofIssued (survivorUserId donorUserId : UserId) (link jti : String)
  /-- A merge committed on the strength of a proof. -/
  | merged (survivorUserId donorUserId : UserId) (jti : String)
  deriving DecidableEq, Repr

/-- The database, the proofs ever signed, the calls made so far, and what happened,
newest first. -/
structure State where
  db : Db
  tickets : List Ticket := []
  calls : List Call := []
  events : List Event := []

/-- The steps of the server. A call is named by its place in the list. -/
inductive Action
  | startMerge (signIn : Option SignIn) (allowed : Bool) (quarantine : Option String)
      (email : String)
  | resolveDonor (call : Nat)
  | mintLink (call : Nat) (now : Timestamp) (token : String)
  | completeDonorLink (token : String) (survivorUserId donorUserId : UserId) (now : Timestamp)
  | checkDonor (call : Nat)
  | issueDonorProof (call : Nat) (now : Timestamp) (jti : String)
  | confirmMerge (signIn : Option SignIn) (quarantine : Option String) (ticket : Ticket)
      (intendedDonorUserId : UserId)
  | verifyDonorProof (call : Nat) (now : Timestamp)
  | readSurvivor (call : Nat)
  | readDonor (call : Nat)
  | precompute (call : Nat)
  /-- An attempt of the transaction that no write conflict aborts. -/
  | attempt (call : Nat) (now : Timestamp) (recordId : String)
  | conflict (call : Nat)
  | postCommit (call : Nat) (handleCandidate : String)

def refuse (error : String) : Call := .returned (some ⟨error, false⟩)

/-- The token a call has consumed the link of. -/
def Call.link? : Call → Option String
  | .linkConsumed _ _ link | .donorEligible _ _ link => some link
  | _ => none

/-- The proof a call has consumed and not yet merged on. -/
def Call.proof? : Call → Option String
  | .proven _ _ jti | .survivorEligible _ _ jti | .eligible _ _ jti | .merging _ _ jti _ _ =>
    some jti
  | _ => none

def Event.minted? : Event → Option String
  | .linkMinted _ _ link => some link
  | _ => none

def Event.issued? : Event → Option String
  | .proofIssued _ _ _ jti => some jti
  | _ => none

/-- The link a proof was issued for. -/
def Event.link? : Event → Option String
  | .proofIssued _ _ link _ => some link
  | _ => none

/-- The proof a merge was made on. -/
def Event.proof? : Event → Option String
  | .merged _ _ jti => some jti
  | _ => none

namespace State

variable (s : State)

def setCall (i : Nat) (c : Call) : State := { s with calls := s.calls.set i c }

def addCall (c : Call) : State := { s with calls := s.calls ++ [c] }

def setTokens (t : List VerificationToken) : State :=
  { s with db := { s.db with verificationToken := t } }

/-- `startMerge` up to the donor's lookup. -/
def startMerge (signIn : Option SignIn) (allowed : Bool) (quarantine : Option String)
    (email : String) : State :=
  match startMergeChecks signIn allowed quarantine email s.db.user with
  | .ok survivorUserId => s.addCall (.starting survivorUserId email)
  | .error refusal => s.addCall (.returned (some refusal))

/-- The lookup; without a donor the call answers as if the link had been sent. -/
def resolveDonor (i : Nat) : Option State :=
  match s.calls[i]? with
  | some (.starting survivorUserId email) =>
    match resolveVerifiedUserIdByEmail email s.db with
    | some donorUserId =>
      if donorUserId = survivorUserId then some (s.setCall i (.returned none))
      else some (s.setCall i (.resolved survivorUserId donorUserId))
    | none => some (s.setCall i (.returned none))
  | _ => none

/-- `startMerge` creates the link's marker, under a token never used before. -/
def mintLink (i : Nat) (now : Timestamp) (token : String) : Option State :=
  match s.calls[i]? with
  | some (.resolved survivorUserId donorUserId) =>
    if token ∈ s.events.filterMap Event.minted? then none
    else
      match create ⟨linkIdentifier survivorUserId donorUserId, token, now + mergeLinkTtlMs⟩
        s.db.verificationToken with
      | .ok t =>
        some { (s.setTokens t).setCall i (.returned none) with
          events := .linkMinted survivorUserId donorUserId token :: s.events }
      | .error _ => some (s.setCall i .thrown)
  | _ => none

/-- The markers the deletion in `completeDonorLink` hits. -/
def linkRows (token : String) (survivorUserId donorUserId : UserId) (now : Timestamp)
    (r : VerificationToken) : Bool :=
  r.identifier = linkIdentifier survivorUserId donorUserId && r.token = token && now < r.expires

/-- `completeDonorLink` up to the deletion of the link's marker. The ids come from
the link and may be any strings. -/
def completeDonorLink (token : String) (survivorUserId donorUserId : UserId) (now : Timestamp) :
    State :=
  if token = "" ∨ survivorUserId = "" ∨ donorUserId = "" then
    s.addCall (refuse "This confirmation link is malformed.")
  else if survivorUserId = donorUserId then
    s.addCall (refuse "An account can't be merged into itself.")
  else
    (s.setTokens (deleteMany (linkRows token survivorUserId donorUserId now)
      s.db.verificationToken)).addCall
      (if (findMany (linkRows token survivorUserId donorUserId now)
          s.db.verificationToken).length = 1 then
        .linkConsumed survivorUserId donorUserId token
      else refuse "This confirmation link is invalid, expired, or already used.")

def checkDonor (i : Nat) : Option State :=
  match s.calls[i]? with
  | some (.linkConsumed survivorUserId donorUserId link) =>
    match findUser donorUserId s.db.user with
    | some donor =>
      if donor.isBanned = false ∧ donor.mergedIntoUserId = none then
        some (s.setCall i (.donorEligible survivorUserId donorUserId link))
      else some (s.setCall i (refuse "This account can no longer be merged."))
    | none => some (s.setCall i (refuse "This account can no longer be merged."))
  | _ => none

/-- The marker, under a `jti` never used before, and then the signed proof. -/
def issueDonorProof (i : Nat) (now : Timestamp) (jti : String) : Option State :=
  match s.calls[i]? with
  | some (.donorEligible survivorUserId donorUserId link) =>
    if jti ∈ s.events.filterMap Event.issued? then none
    else
      match create ⟨donorProofIdentifier, jti, now + donorProofTtlSeconds * 1000⟩
        s.db.verificationToken with
      | .ok t =>
        some { (s.setTokens t).setCall i (.returned none) with
          tickets := s.tickets ++ [⟨donorUserId, jti, now / 1000 + donorProofTtlSeconds⟩]
          events := .proofIssued survivorUserId donorUserId link jti :: s.events }
      | .error _ => some (s.setCall i .thrown)
  | _ => none

def confirmMerge (signIn : Option SignIn) (quarantine : Option String) (ticket : Ticket)
    (intendedDonorUserId : UserId) : State :=
  match confirmMergeChecks signIn quarantine s.db.user with
  | .ok survivorUserId => s.addCall (.confirming survivorUserId ticket intendedDonorUserId)
  | .error refusal => s.addCall (.returned (some refusal))

/-- The marker of a proof; its expiry is not asked again. -/
def proofRow (jti : String) (r : VerificationToken) : Bool :=
  r.identifier = donorProofIdentifier && r.token = jti

/-- What `confirmMerge` makes of a proof it has consumed. -/
def acceptProof (survivorUserId : UserId) (ticket : Ticket) (intendedDonorUserId : UserId) : Call :=
  if ticket.donorUserId ≠ intendedDonorUserId then
    refuse "Donor confirmation doesn't match the account you selected."
  else if ticket.donorUserId = survivorUserId then
    refuse "An account can't be merged into itself."
  else .proven survivorUserId ticket.donorUserId ticket.jti

/-- Signature and expiry, then the deletion of the marker. -/
def verifyDonorProof (i : Nat) (now : Timestamp) : Option State :=
  match s.calls[i]? with
  | some (.confirming survivorUserId ticket intendedDonorUserId) =>
    if (ticket ∈ s.tickets ∧ now / 1000 < ticket.exp) ∧
        s.db.verificationToken.any (proofRow ticket.jti) then
      some ((s.setTokens (deleteMany (proofRow ticket.jti) s.db.verificationToken)).setCall i
        (acceptProof survivorUserId ticket intendedDonorUserId))
    else
      some (s.setCall i (refuse "Donor confirmation is invalid, expired, or already used."))
  | _ => none

def readSurvivor (i : Nat) : Option State :=
  match s.calls[i]? with
  | some (.proven survivorUserId donorUserId jti) =>
    some (s.setCall i (if Interleaving.isLive survivorUserId s.db.user
      then .survivorEligible survivorUserId donorUserId jti
      else refuse "Your account is no longer in a state that can absorb a merge."))
  | _ => none

def readDonor (i : Nat) : Option State :=
  match s.calls[i]? with
  | some (.survivorEligible survivorUserId donorUserId jti) =>
    some (s.setCall i (if Interleaving.isLive donorUserId s.db.user
      then .eligible survivorUserId donorUserId jti
      else refuse "That account can no longer be merged (already merged or missing)."))
  | _ => none

def precompute (pairwise : UserId → ClientId → String) (i : Nat) : Option State :=
  match s.calls[i]? with
  | some (.eligible survivorUserId donorUserId jti) =>
    some (s.setCall i (.merging survivorUserId donorUserId jti
      (precomputeSubs pairwise donorUserId s.db) 1))
  | _ => none

def attempt (i : Nat) (now : Timestamp) (recordId : String) : Option State :=
  match s.calls[i]? with
  | some (.merging survivorUserId donorUserId jti subs _) =>
    match runMergeTx survivorUserId donorUserId now recordId subs s.db with
    | .ok (db, result) =>
      some { s with
        db
        calls := s.calls.set i (.merged survivorUserId result)
        events := .merged survivorUserId donorUserId jti :: s.events }
    | .error _ => some (s.setCall i .thrown)
  | _ => none

def conflict (i : Nat) : Option State :=
  match s.calls[i]? with
  | some (.merging survivorUserId donorUserId jti subs n) =>
    some (s.setCall i (if n < Interleaving.maxTxAttempts
      then .merging survivorUserId donorUserId jti subs (n + 1) else .thrown))
  | _ => none

def postCommit (i : Nat) (handleCandidate : String) : Option State :=
  match s.calls[i]? with
  | some (.merged survivorUserId result) =>
    some { s with
      db := runPostCommit (reassignOnMerge survivorUserId handleCandidate result) s.db
      calls := s.calls.set i (.returned none) }
  | _ => none

end State

/-- One step of the server, unless the named call is not at that point. -/
def step (pairwise : UserId → ClientId → String) (s : State) : Action → Option State
  | .startMerge signIn allowed quarantine email =>
    some (s.startMerge signIn allowed quarantine email)
  | .resolveDonor i => s.resolveDonor i
  | .mintLink i now token => s.mintLink i now token
  | .completeDonorLink token survivorUserId donorUserId now =>
    some (s.completeDonorLink token survivorUserId donorUserId now)
  | .checkDonor i => s.checkDonor i
  | .issueDonorProof i now jti => s.issueDonorProof i now jti
  | .confirmMerge signIn quarantine ticket intendedDonorUserId =>
    some (s.confirmMerge signIn quarantine ticket intendedDonorUserId)
  | .verifyDonorProof i now => s.verifyDonorProof i now
  | .readSurvivor i => s.readSurvivor i
  | .readDonor i => s.readDonor i
  | .precompute i => s.precompute pairwise i
  | .attempt i now recordId => s.attempt i now recordId
  | .conflict i => s.conflict i
  | .postCommit i handleCandidate => s.postCommit i handleCandidate

/-! ### What authorises a merge -/

/-- What an event needs of the earlier ones. A link is new; a proof is new and issued
for a link its survivor minted for this donor, once per link; a merge is made on a
proof issued for exactly this pair, once per proof. -/
def Justified (earlier : List Event) : Event → Prop
  | .linkMinted _ _ link => link ∉ earlier.filterMap Event.minted?
  | .proofIssued survivorUserId donorUserId link jti =>
    .linkMinted survivorUserId donorUserId link ∈ earlier ∧
      link ∉ earlier.filterMap Event.link? ∧ jti ∉ earlier.filterMap Event.issued?
  | .merged survivorUserId donorUserId jti =>
    (∃ link, .proofIssued survivorUserId donorUserId link jti ∈ earlier) ∧
      jti ∉ earlier.filterMap Event.proof?

/-- Every event is justified by the ones before it. -/
def Authorized : List Event → Prop
  | [] => True
  | e :: earlier => Justified earlier e ∧ Authorized earlier

/-- A proof that is accepted was issued for a link that names the account presenting it as
the survivor. -/
def PresentedBySurvivor (s : State) : Action → Prop
  | .verifyDonorProof i now =>
    ∀ s' S D jti, s.verifyDonorProof i now = some s' → s'.calls[i]? = some (.proven S D jti) →
      ∃ link, Event.proofIssued S D link jti ∈ s.events
  | _ => True

/-! ### Identifiers -/

section Identifiers

variable {S D S' D' : UserId}

/-- Account ids have no colon, so the marker of a link determines the pair. -/
theorem linkIdentifier_inj (hS : ':' ∉ S.toList) (hD : ':' ∉ D.toList)
    (h : linkIdentifier S' D' = linkIdentifier S D) : S' = S ∧ D' = D := by
  unfold linkIdentifier at h
  have hcolon : ":".toList = [':'] := by simp
  have hlist := congrArg String.toList h.symm
  simp only [String.toList_append, List.append_assoc, List.append_cancel_left_eq,
    hcolon, List.singleton_append] at hlist
  rw [List.append_cons_inj_of_notMem hS hD] at hlist
  exact ⟨String.toList_inj.mp hlist.1.symm, String.toList_inj.mp hlist.2.2.symm⟩

theorem linkIdentifier_ne_donorProofIdentifier : linkIdentifier S D ≠ donorProofIdentifier := by
  intro h
  unfold linkIdentifier donorProofIdentifier at h
  -- The two namespaces differ in their first letter.
  have hhead := congrArg (fun x => x.toList.head?) h
  simp at hhead

end Identifiers

/-! ### Accounts behind sessions and addresses -/

section Checks

variable {signIn : Option SignIn} {t : List User} {quarantine : Option String} {S D : UserId}

theorem exists_of_passkeySession {stepUpText recoveredText : String}
    (h : passkeySession stepUpText recoveredText signIn t = .ok S) : ∃ u ∈ t, u.id = S := by
  unfold passkeySession at h
  split at h
  · cases h
  · rename_i session hsession
    split_ifs at h
    cases h
    simp only [getCurrentSession, Option.bind_eq_bind, Option.bind_eq_some_iff] at hsession
    obtain ⟨claims, -, -, -, fresh, hfound, -, -, -, -, -, -, heq⟩ := hsession
    cases heq
    exact ⟨fresh, mem_of_findUser hfound, findUser_id hfound⟩

theorem exists_of_startMergeChecks {allowed : Bool} {email : String}
    (h : startMergeChecks signIn allowed quarantine email t = .ok S) : ∃ u ∈ t, u.id = S := by
  unfold startMergeChecks at h
  split at h
  · cases h
  · rename_i S' hsession
    cases quarantine with
    | some message => split_ifs at h
    | none =>
      split_ifs at h
      cases h
      exact exists_of_passkeySession hsession

theorem exists_of_resolveVerifiedUserIdByEmail {email : String} {db : Db}
    (h : resolveVerifiedUserIdByEmail email db = some D) : ∃ u ∈ db.user, u.id = D := by
  simp only [resolveVerifiedUserIdByEmail, Option.bind_eq_bind, Option.bind_eq_some_iff] at h
  obtain ⟨owned, -, -, -, u, hfound, -, -, heq⟩ := h
  exact ⟨u, mem_of_findUser hfound, Option.some.inj heq⟩

end Checks

/-! ### What authorised histories satisfy -/

section Authorized

variable {E : List Event} {S D S' D' : UserId} {link jti : String}

theorem mem_minted (h : Event.linkMinted S D link ∈ E) : link ∈ E.filterMap Event.minted? :=
  List.mem_filterMap.mpr ⟨_, h, rfl⟩

theorem mem_issued (h : Event.proofIssued S D link jti ∈ E) : jti ∈ E.filterMap Event.issued? :=
  List.mem_filterMap.mpr ⟨_, h, rfl⟩

/-- One link, one pair. -/
theorem Authorized.minted_inj (hE : Authorized E) (h : Event.linkMinted S D link ∈ E)
    (h' : Event.linkMinted S' D' link ∈ E) : S = S' ∧ D = D' := by
  induction E with
  | nil => cases h
  | cons e earlier ih =>
    obtain ⟨hjust, hrest⟩ := hE
    rcases List.mem_cons.mp h with rfl | hold <;> rcases List.mem_cons.mp h' with heq | hold'
    · cases heq
      exact ⟨rfl, rfl⟩
    · exact absurd (mem_minted hold') hjust
    · rw [← heq] at hjust
      exact absurd (mem_minted hold) hjust
    · exact ih hrest hold hold'

/-- What justifies an event comes before it. -/
theorem Authorized.justified (hE : Authorized E) {e : Event} (he : e ∈ E) :
    ∃ earlier, earlier ⊆ E ∧ Justified earlier e := by
  induction E with
  | nil => cases he
  | cons e' earlier ih =>
    obtain ⟨hjust, hrest⟩ := hE
    rcases List.mem_cons.mp he with rfl | hold
    · exact ⟨earlier, List.subset_cons_self _ _, hjust⟩
    · obtain ⟨E', hsub, hjust'⟩ := ih hrest hold
      exact ⟨E', List.subset_cons_of_subset _ hsub, hjust'⟩

/-- Proofs are issued for links that were minted. -/
theorem Authorized.mem_minted_of_link (hE : Authorized E) (h : link ∈ E.filterMap Event.link?) :
    link ∈ E.filterMap Event.minted? := by
  obtain ⟨e, he, hlink⟩ := List.mem_filterMap.mp h
  cases e with
  | linkMinted | merged => cases hlink
  | proofIssued S D link' jti =>
    cases hlink
    obtain ⟨earlier, hsub, hminted, -⟩ := hE.justified he
    exact mem_minted (hsub hminted)

/-- Merges are made on proofs that were issued. -/
theorem Authorized.mem_issued_of_proof (hE : Authorized E) (h : jti ∈ E.filterMap Event.proof?) :
    jti ∈ E.filterMap Event.issued? := by
  obtain ⟨e, he, hproof⟩ := List.mem_filterMap.mp h
  cases e with
  | linkMinted | proofIssued => cases hproof
  | merged S D jti' =>
    cases hproof
    obtain ⟨earlier, hsub, ⟨link, hissued⟩, -⟩ := hE.justified he
    exact mem_issued (hsub hissued)

end Authorized

/-! ### The invariant -/

/-- What a call in progress rests on. -/
def Call.Ok (events : List Event) : Call → Prop
  | .starting S _ => ':' ∉ S.toList
  | .resolved S D => ':' ∉ S.toList ∧ ':' ∉ D.toList
  | .linkConsumed S D link | .donorEligible S D link => .linkMinted S D link ∈ events
  | .proven S D jti | .survivorEligible S D jti | .eligible S D jti | .merging S D jti _ _ =>
    S ≠ D ∧ ∃ link, .proofIssued S D link jti ∈ events
  | _ => True

/-- The links consumed so far, by calls still running and by those that issued a proof. -/
def usedLinks (s : State) : List String :=
  s.calls.filterMap Call.link? ++ s.events.filterMap Event.link?

/-- The proofs consumed so far, by calls still running and by those that merged. -/
def usedProofs (s : State) : List String :=
  s.calls.filterMap Call.proof? ++ s.events.filterMap Event.proof?

/-- A link and a proof are each in one place: an unconsumed marker, a call that
consumed it, or the event it led to. -/
structure Inv (s : State) : Prop where
  db : s.db.Consistent
  tokens : Consistent s.db.verificationToken
  ids : ∀ u ∈ s.db.user, ':' ∉ u.id.toList
  calls : ∀ c ∈ s.calls, c.Ok s.events
  links : ∀ r ∈ s.db.verificationToken, ∀ S D, r.identifier = linkIdentifier S D →
    .linkMinted S D r.token ∈ s.events ∧ r.token ∉ usedLinks s
  proofs : ∀ r ∈ s.db.verificationToken, r.identifier = donorProofIdentifier →
    r.token ∉ usedProofs s
  linksOnce : (usedLinks s).Nodup
  proofsOnce : (usedProofs s).Nodup
  authorized : Authorized s.events

section Invariant

variable {s : State} {i : Nat} {c : Call} {S D : UserId} {link jti token : String}
  {t : List VerificationToken} {now : Timestamp}

/-- What a call rests on stays true as more happens. -/
theorem Call.Ok.cons {events : List Event} {c : Call} (h : c.Ok events) (e : Event) :
    c.Ok (e :: events) := by
  cases c with
  | linkConsumed | donorEligible => exact List.mem_cons_of_mem e h
  | proven | survivorEligible | eligible | merging =>
    obtain ⟨hne, link, hissued⟩ := h
    exact ⟨hne, link, List.mem_cons_of_mem e hissued⟩
  | _ => exact h

variable (hs : Inv s)

include hs

theorem Inv.call_ok (hcall : s.calls[i]? = some c) : c.Ok s.events :=
  hs.calls c (List.mem_of_getElem? hcall)

/-- A consumed link was minted. -/
theorem Inv.mem_minted (h : link ∈ usedLinks s) : link ∈ s.events.filterMap Event.minted? := by
  rcases List.mem_append.mp h with hcalls | hevents
  · obtain ⟨c, hc, hlink⟩ := List.mem_filterMap.mp hcalls
    have hok := hs.calls c hc
    cases c with
    | linkConsumed | donorEligible =>
      cases hlink
      exact Ceremony.mem_minted hok
    | _ => cases hlink
  · exact hs.authorized.mem_minted_of_link hevents

/-- A consumed proof was issued. -/
theorem Inv.mem_issued (h : jti ∈ usedProofs s) : jti ∈ s.events.filterMap Event.issued? := by
  rcases List.mem_append.mp h with hcalls | hevents
  · obtain ⟨c, hc, hproof⟩ := List.mem_filterMap.mp hcalls
    have hok := hs.calls c hc
    cases c with
    | proven | survivorEligible | eligible | merging =>
      cases hproof
      obtain ⟨-, link, hissued⟩ := hok
      exact Ceremony.mem_issued hissued
    | _ => cases hproof
  · exact hs.authorized.mem_issued_of_proof hevents

/-- A call that goes on without consuming anything. -/
theorem Inv.setCall (c' : Call) (hcall : s.calls[i]? = some c)
    (hlink : c'.link? = c.link? ∨ c'.link? = none)
    (hproof : c'.proof? = c.proof? ∨ c'.proof? = none) (hok : c'.Ok s.events) :
    Inv (s.setCall i c') := by
  have hlinks : (usedLinks (s.setCall i c')).Sublist (usedLinks s) :=
    (filterMap_set_sublist hcall hlink).append (List.Sublist.refl _)
  have hproofs : (usedProofs (s.setCall i c')).Sublist (usedProofs s) :=
    (filterMap_set_sublist hcall hproof).append (List.Sublist.refl _)
  exact {
    hs with
    calls := forall_mem_set hs.calls hok
    links := fun r hr S D hid =>
      ⟨(hs.links r hr S D hid).1, fun hused => (hs.links r hr S D hid).2 (hlinks.subset hused)⟩
    proofs := fun r hr hid hused => hs.proofs r hr hid (hproofs.subset hused)
    linksOnce := hs.linksOnce.sublist hlinks
    proofsOnce := hs.proofsOnce.sublist hproofs }

/-- A new call that has not consumed anything. -/
theorem Inv.addCall (hlink : c.link? = none) (hproof : c.proof? = none) (hok : c.Ok s.events) :
    Inv (s.addCall c) := by
  have hlinks : usedLinks (s.addCall c) = usedLinks s := by
    simp [usedLinks, State.addCall, hlink]
  have hproofs : usedProofs (s.addCall c) = usedProofs s := by
    simp [usedProofs, State.addCall, hproof]
  exact {
    hs with
    calls := forall_mem_concat hs.calls hok
    links := by rw [hlinks]; exact hs.links
    proofs := by rw [hproofs]; exact hs.proofs
    linksOnce := by rw [hlinks]; exact hs.linksOnce
    proofsOnce := by rw [hproofs]; exact hs.proofsOnce }

/-- Deleted markers free nothing. -/
theorem Inv.deleteTokens (p : VerificationToken → Bool) :
    Inv (s.setTokens (deleteMany p s.db.verificationToken)) where
  db := { hs.db with }
  tokens := hs.tokens.deleteMany
  ids := hs.ids
  calls := hs.calls
  links := fun r hr => hs.links r (mem_deleteMany.mp hr).1
  proofs := fun r hr => hs.proofs r (mem_deleteMany.mp hr).1
  linksOnce := hs.linksOnce
  proofsOnce := hs.proofsOnce
  authorized := hs.authorized

/-- Other tables may change as long as account ids do not. -/
theorem Inv.setDb {db : Db} (hdb : db.Consistent)
    (htokens : db.verificationToken = s.db.verificationToken)
    (hids : ∀ u ∈ db.user, ∃ v ∈ s.db.user, v.id = u.id) : Inv { s with db } := by
  exact {
    hs with
    db := hdb
    tokens := by rw [htokens]; exact hs.tokens
    ids := by
      intro u hu
      obtain ⟨v, hv, hid⟩ := hids u hu
      rw [← hid]
      exact hs.ids v hv
    links := by rw [htokens]; exact hs.links
    proofs := by rw [htokens]; exact hs.proofs }

/-- `startMerge` creates a marker under a token not minted before. -/
theorem Inv.mintLink (hcall : s.calls[i]? = some (.resolved S D))
    (hnew : token ∉ s.events.filterMap Event.minted?)
    (hcreate : create ⟨linkIdentifier S D, token, now⟩ s.db.verificationToken = .ok t) :
    Inv { (s.setTokens t).setCall i (.returned none) with
      events := .linkMinted S D token :: s.events } := by
  obtain ⟨hcons, rfl⟩ := create_eq_ok_iff.mp hcreate
  obtain ⟨hS, hD⟩ := hs.call_ok hcall
  have hset := hs.setCall (.returned none) hcall (.inr rfl) (.inr rfl) trivial
  have hunused : token ∉ usedLinks (s.setCall i (.returned none)) :=
    fun hused => hnew (hset.mem_minted hused)
  exact {
    db := { hs.db with }
    tokens := hcons
    ids := hs.ids
    calls := fun c hc => (hset.calls c hc).cons _
    links := by
      refine forall_mem_concat (fun r hold S' D' hid => ?_) fun S' D' hid => ?_
      · obtain ⟨hminted, hfree⟩ := hset.links r hold S' D' hid
        exact ⟨List.mem_cons_of_mem _ hminted, hfree⟩
      · obtain ⟨rfl, rfl⟩ := linkIdentifier_inj hS hD hid.symm
        exact ⟨List.mem_cons_self, hunused⟩
    proofs := forall_mem_concat hset.proofs fun hid =>
      absurd hid linkIdentifier_ne_donorProofIdentifier
    linksOnce := hset.linksOnce
    proofsOnce := hset.proofsOnce
    authorized := ⟨hnew, hs.authorized⟩ }

/-- `completeDonorLink` consumes a link whose marker it has deleted. -/
theorem Inv.takeLink (hminted : .linkMinted S D link ∈ s.events) (hunused : link ∉ usedLinks s)
    (hgone : ∀ r ∈ s.db.verificationToken, ∀ S' D', r.identifier = linkIdentifier S' D' →
      r.token ≠ link) :
    Inv (s.addCall (.linkConsumed S D link)) := by
  have hlinks : (usedLinks (s.addCall (.linkConsumed S D link))).Perm (link :: usedLinks s) := by
    simp only [usedLinks, State.addCall, List.filterMap_append, List.append_assoc]
    exact List.perm_middle
  have hproofs : usedProofs (s.addCall (.linkConsumed S D link)) = usedProofs s := by
    simp [usedProofs, State.addCall, Call.proof?]
  exact {
    hs with
    calls := forall_mem_concat hs.calls hminted
    links := by
      intro r hr S' D' hid
      refine ⟨(hs.links r hr S' D' hid).1, fun hused => ?_⟩
      rcases List.mem_cons.mp (hlinks.mem_iff.mp hused) with heq | hold
      · exact hgone r hr S' D' hid heq
      · exact (hs.links r hr S' D' hid).2 hold
    proofs := by rw [hproofs]; exact hs.proofs
    linksOnce := hlinks.nodup_iff.mpr (hs.linksOnce.cons hunused)
    proofsOnce := by rw [hproofs]; exact hs.proofsOnce }

/-- `completeDonorLink` issues a proof: the link passes from the call to the event. -/
theorem Inv.issueDonorProof {tickets : List Ticket}
    (hcall : s.calls[i]? = some (.donorEligible S D link))
    (hnew : jti ∉ s.events.filterMap Event.issued?)
    (hcreate : create ⟨donorProofIdentifier, jti, now⟩ s.db.verificationToken = .ok t) :
    Inv { (s.setTokens t).setCall i (.returned none) with
      tickets, events := .proofIssued S D link jti :: s.events } := by
  obtain ⟨hcons, rfl⟩ := create_eq_ok_iff.mp hcreate
  have hminted : .linkMinted S D link ∈ s.events := hs.call_ok hcall
  have hset := hs.setCall (.returned none) hcall (.inr rfl) (.inr rfl) trivial
  have hgive := perm_filterMap_set_give (f := Call.link?) (b := .returned none) hcall rfl rfl
  have hlinks : (usedLinks s).Perm
      ((s.calls.set i (.returned none)).filterMap Call.link? ++
        link :: s.events.filterMap Event.link?) :=
    (hgive.append_right _).trans List.perm_middle.symm
  have hunused : jti ∉ usedProofs (s.setCall i (.returned none)) :=
    fun hused => hnew (hset.mem_issued hused)
  have hlink : link ∉ s.events.filterMap Event.link? := by
    have honce := hlinks.nodup_iff.mp hs.linksOnce
    exact (List.nodup_cons.mp (List.nodup_append.mp honce).2.1).1
  exact {
    db := { hs.db with }
    tokens := hcons
    ids := hs.ids
    calls := fun c hc => (hset.calls c hc).cons _
    links := by
      refine forall_mem_concat (fun r hold S' D' hid => ?_) fun S' D' hid => ?_
      · obtain ⟨hminted', hfree⟩ := hs.links r hold S' D' hid
        exact ⟨List.mem_cons_of_mem _ hminted', fun hused => hfree (hlinks.mem_iff.mpr hused)⟩
      · exact absurd hid.symm linkIdentifier_ne_donorProofIdentifier
    proofs := forall_mem_concat hset.proofs fun _ => hunused
    linksOnce := hlinks.nodup_iff.mp hs.linksOnce
    proofsOnce := hset.proofsOnce
    authorized := ⟨⟨hminted, hlink, hnew⟩, hs.authorized⟩ }

/-- `confirmMerge` consumes a proof whose marker it has deleted. -/
theorem Inv.takeProof {ticket : Ticket} {intended : UserId}
    (hcall : s.calls[i]? = some (.confirming S ticket intended)) (hne : S ≠ D)
    (hissued : ∃ link, .proofIssued S D link jti ∈ s.events) (hunused : jti ∉ usedProofs s)
    (hgone : ∀ r ∈ s.db.verificationToken, r.identifier = donorProofIdentifier → r.token ≠ jti) :
    Inv (s.setCall i (.proven S D jti)) := by
  have hlinks : (usedLinks (s.setCall i (.proven S D jti))).Sublist (usedLinks s) :=
    (filterMap_set_sublist hcall (.inr rfl)).append (List.Sublist.refl _)
  have htake := perm_filterMap_set_take (f := Call.proof?) (b := .proven S D jti) hcall rfl rfl
  have hproofs : (usedProofs (s.setCall i (.proven S D jti))).Perm (jti :: usedProofs s) :=
    htake.append_right _
  exact {
    hs with
    calls := forall_mem_set hs.calls ⟨hne, hissued⟩
    links := fun r hr S' D' hid =>
      ⟨(hs.links r hr S' D' hid).1, fun hused => (hs.links r hr S' D' hid).2 (hlinks.subset hused)⟩
    proofs := by
      intro r hr hid hused
      rcases List.mem_cons.mp (hproofs.mem_iff.mp hused) with heq | hold
      · exact hgone r hr hid heq
      · exact hs.proofs r hr hid hold
    linksOnce := hs.linksOnce.sublist hlinks
    proofsOnce := hproofs.nodup_iff.mpr (hs.proofsOnce.cons hunused) }

/-- A merge commits: the proof passes from the call to the event. -/
theorem Inv.merge {subs : List SubAtClient} {n : Nat} {result : MergeTxResult}
    (hcall : s.calls[i]? = some (.merging S D jti subs n)) :
    Inv { s with
      calls := s.calls.set i (.merged S result), events := .merged S D jti :: s.events } := by
  obtain ⟨-, hissued⟩ := hs.call_ok hcall
  have hset := hs.setCall (.merged S result) hcall (.inr rfl) (.inr rfl) trivial
  have hgive := perm_filterMap_set_give (f := Call.proof?) (b := .merged S result) hcall rfl rfl
  have hproofs : (usedProofs s).Perm
      ((s.calls.set i (.merged S result)).filterMap Call.proof? ++
        jti :: s.events.filterMap Event.proof?) :=
    (hgive.append_right _).trans List.perm_middle.symm
  have hjti : jti ∉ s.events.filterMap Event.proof? := by
    have honce := hproofs.nodup_iff.mp hs.proofsOnce
    exact (List.nodup_cons.mp (List.nodup_append.mp honce).2.1).1
  exact {
    db := hs.db
    tokens := hs.tokens
    ids := hs.ids
    calls := fun c hc => (hset.calls c hc).cons _
    links := by
      intro r hr S' D' hid
      obtain ⟨hminted, hfree⟩ := hset.links r hr S' D' hid
      exact ⟨List.mem_cons_of_mem _ hminted, hfree⟩
    proofs := fun r hr hid hused => hs.proofs r hr hid (hproofs.mem_iff.mpr hused)
    linksOnce := hset.linksOnce
    proofsOnce := hproofs.nodup_iff.mp hs.proofsOnce
    authorized := ⟨⟨hissued, hjti⟩, hs.authorized⟩ }

end Invariant

/-! ### Runs -/

section Runs

variable {pairwise : UserId → ClientId → String} {s s' : State} {a : Action} {i : Nat}
  {now : Timestamp}

section

variable (hs : Inv s)

include hs

theorem inv_startMerge (signIn : Option SignIn) (allowed : Bool) (quarantine : Option String)
    (email : String) : Inv (s.startMerge signIn allowed quarantine email) := by
  unfold State.startMerge
  split
  · rename_i S hchecks
    obtain ⟨u, hu, rfl⟩ := exists_of_startMergeChecks hchecks
    exact hs.addCall rfl rfl (hs.ids u hu)
  · exact hs.addCall rfl rfl trivial

theorem inv_confirmMerge (signIn : Option SignIn) (quarantine : Option String) (ticket : Ticket)
    (intended : UserId) : Inv (s.confirmMerge signIn quarantine ticket intended) := by
  unfold State.confirmMerge
  split
  · exact hs.addCall rfl rfl trivial
  · exact hs.addCall rfl rfl trivial

theorem inv_resolveDonor (h : s.resolveDonor i = some s') : Inv s' := by
  unfold State.resolveDonor at h
  split at h
  · rename_i S email hcall
    split at h
    · rename_i D hresolve
      split_ifs at h
      · cases h
        exact hs.setCall _ hcall (.inr rfl) (.inr rfl) trivial
      · cases h
        obtain ⟨u, hu, rfl⟩ := exists_of_resolveVerifiedUserIdByEmail hresolve
        exact hs.setCall _ hcall (.inr rfl) (.inr rfl) ⟨hs.call_ok hcall, hs.ids u hu⟩
    · cases h
      exact hs.setCall _ hcall (.inr rfl) (.inr rfl) trivial
  · cases h

/-- The one row a link's deletion hits is gone afterwards, and so is its token: no
other link has it. -/
theorem inv_completeDonorLink (token : String) (S D : UserId) (now : Timestamp) :
    Inv (s.completeDonorLink token S D now) := by
  unfold State.completeDonorLink
  split_ifs with hempty hself hone
  · exact hs.addCall rfl rfl trivial
  · exact hs.addCall rfl rfl trivial
  · have hdel := hs.deleteTokens (State.linkRows token S D now)
    obtain ⟨r, hr⟩ := List.length_eq_one_iff.mp hone
    obtain ⟨hmem, hhit⟩ := mem_findMany.mp (hr ▸ List.mem_singleton_self r)
    have hrow := hhit
    simp only [State.linkRows, Bool.and_eq_true, decide_eq_true_eq] at hrow
    obtain ⟨⟨hid, rfl⟩, -⟩ := hrow
    obtain ⟨hminted, hfree⟩ := hs.links r hmem S D hid
    refine hdel.takeLink hminted hfree ?_
    intro r' hr' S' D' hid' htoken
    obtain ⟨hmem', hmiss⟩ := mem_deleteMany.mp hr'
    obtain ⟨hminted', -⟩ := hs.links r' hmem' S' D' hid'
    rw [htoken] at hminted'
    obtain ⟨rfl, rfl⟩ := hs.authorized.minted_inj hminted hminted'
    have heq : r' = r := hs.tokens.eq_of_clash hmem' hmem (by simp [clash, hid, hid', htoken])
    rw [heq, hhit] at hmiss
    cases hmiss
  · exact (hs.deleteTokens _).addCall rfl rfl trivial

theorem inv_checkDonor (h : s.checkDonor i = some s') : Inv s' := by
  unfold State.checkDonor at h
  split at h
  · rename_i S D link hcall
    split at h
    · split_ifs at h
      · cases h
        have hminted : .linkMinted S D link ∈ s.events := hs.call_ok hcall
        exact hs.setCall _ hcall (.inl rfl) (.inr rfl) hminted
      · cases h
        exact hs.setCall _ hcall (.inr rfl) (.inr rfl) trivial
    · cases h
      exact hs.setCall _ hcall (.inr rfl) (.inr rfl) trivial
  · cases h

theorem inv_mintLink {token : String} (h : s.mintLink i now token = some s') : Inv s' := by
  unfold State.mintLink at h
  split at h
  · rename_i S D hcall
    split_ifs at h with hnew
    split at h
    · rename_i t hcreate
      cases h
      exact hs.mintLink hcall hnew hcreate
    · cases h
      exact hs.setCall .thrown hcall (.inr rfl) (.inr rfl) trivial
  · cases h

theorem inv_issueDonorProof {jti : String} (h : s.issueDonorProof i now jti = some s') :
    Inv s' := by
  unfold State.issueDonorProof at h
  split at h
  · rename_i S D link hcall
    split_ifs at h with hnew
    split at h
    · rename_i t hcreate
      cases h
      exact hs.issueDonorProof hcall hnew hcreate
    · cases h
      exact hs.setCall .thrown hcall (.inr rfl) (.inr rfl) trivial
  · cases h

/-- The proof verified was issued for the account presenting it. -/
theorem inv_verifyDonorProof (hok : PresentedBySurvivor s (.verifyDonorProof i now))
    (h : s.verifyDonorProof i now = some s') : Inv s' := by
  have hissued := fun S D jti => hok s' S D jti h
  unfold State.verifyDonorProof at h
  split at h
  · rename_i S ticket intended hcall
    split_ifs at h with hverified
    · cases h
      obtain ⟨⟨hsigned, -⟩, hmarker⟩ := hverified
      have hdel := hs.deleteTokens (State.proofRow ticket.jti)
      unfold State.acceptProof at hissued ⊢
      split_ifs at hissued ⊢ with hintended hself
      · exact hdel.setCall _ hcall (.inr rfl) (.inr rfl) trivial
      · exact hdel.setCall _ hcall (.inr rfl) (.inr rfl) trivial
      · obtain ⟨r, hr, hrow⟩ := List.any_eq_true.mp hmarker
        simp only [State.proofRow, Bool.and_eq_true, decide_eq_true_eq] at hrow
        obtain ⟨hid, htoken⟩ := hrow
        have hunused := hs.proofs r hr hid
        rw [htoken] at hunused
        have hlink := hissued S ticket.donorUserId ticket.jti (by
          simp [State.setCall, State.setTokens, (List.getElem?_eq_some_iff.mp hcall).1])
        refine hdel.takeProof hcall (Ne.symm hself) hlink hunused ?_
        intro r' hr' hid' htoken'
        obtain ⟨-, hmiss⟩ := mem_deleteMany.mp hr'
        simp [State.proofRow, hid', htoken'] at hmiss
    · cases h
      exact hs.setCall _ hcall (.inr rfl) (.inr rfl) trivial
  · cases h

/-- A merge touches neither the markers nor the ids of the accounts. -/
theorem inv_attempt {recordId : String} (h : s.attempt i now recordId = some s') : Inv s' := by
  unfold State.attempt at h
  split at h
  · rename_i S D jti subs n hcall
    split at h
    · rename_i db result htx
      cases h
      have hne : S ≠ D := (hs.call_ok hcall).1
      obtain ⟨survivor, donor, hready, hout⟩ := (runMergeTx_eq_ok_iff hs.db hne).mp htx
      obtain ⟨rfl, -⟩ := Prod.mk.inj hout
      apply (hs.merge hcall).setDb (consistent_mergedDb now hs.db hne hready) rfl
      intro u hu
      obtain ⟨v, hv, rfl⟩ := mem_mapWhere.mp hu
      obtain ⟨w, hw, rfl⟩ := mem_mapWhere.mp hv
      exact ⟨w, hw, by split_ifs <;> rfl⟩
    · cases h
      exact hs.setCall .thrown hcall (.inr rfl) (.inr rfl) trivial
  · cases h

theorem inv_postCommit {candidate : String} (h : s.postCommit i candidate = some s') : Inv s' := by
  unfold State.postCommit at h
  split at h <;> cases h
  rename_i S result hcall
  obtain ⟨p, entries, -, hpost, huser, hentries⟩ :=
    runPostCommit_reassignOnMerge_frame S candidate result s.db
  have hcons : (runPostCommit (reassignOnMerge S candidate result) s.db).Consistent := by
    rw [hpost]
    exact { hs.db with
      user := huser hs.db.user
      nullifierEntry := hentries hs.db.nullifierEntry }
  have hreturn := hs.setCall (.returned none) hcall (.inr rfl) (.inr rfl) trivial
  apply hreturn.setDb hcons
  · rw [hpost]
    rfl
  · rw [hpost]
    intro u hu
    obtain ⟨v, hv, rfl⟩ := List.mem_map.mp hu
    refine ⟨v, hv, ?_⟩
    unfold claimHandle
    split_ifs <;> rfl

/-- The step lemma. Only the step that consumes a proof needs the condition. -/
theorem inv_step (hok : PresentedBySurvivor s a) (h : step pairwise s a = some s') : Inv s' := by
  cases a with
  | startMerge signIn allowed quarantine email =>
    cases h
    exact inv_startMerge hs signIn allowed quarantine email
  | resolveDonor i => exact inv_resolveDonor hs h
  | mintLink i now token => exact inv_mintLink hs h
  | completeDonorLink token S D now =>
    cases h
    exact inv_completeDonorLink hs token S D now
  | checkDonor i => exact inv_checkDonor hs h
  | issueDonorProof i now jti => exact inv_issueDonorProof hs h
  | confirmMerge signIn quarantine ticket intended =>
    cases h
    exact inv_confirmMerge hs signIn quarantine ticket intended
  | verifyDonorProof i now => exact inv_verifyDonorProof hs hok h
  | readSurvivor i =>
    simp only [step, State.readSurvivor] at h
    split at h <;> cases h
    rename_i S D jti hcall
    split_ifs
    · exact hs.setCall _ hcall (.inr rfl) (.inl rfl) (hs.call_ok hcall :)
    · exact hs.setCall _ hcall (.inr rfl) (.inr rfl) trivial
  | readDonor i =>
    simp only [step, State.readDonor] at h
    split at h <;> cases h
    rename_i S D jti hcall
    split_ifs
    · exact hs.setCall _ hcall (.inr rfl) (.inl rfl) (hs.call_ok hcall :)
    · exact hs.setCall _ hcall (.inr rfl) (.inr rfl) trivial
  | precompute i =>
    simp only [step, State.precompute] at h
    split at h <;> cases h
    rename_i S D jti hcall
    exact hs.setCall _ hcall (.inr rfl) (.inl rfl) (hs.call_ok hcall :)
  | attempt i now recordId => exact inv_attempt hs h
  | conflict i =>
    simp only [step, State.conflict] at h
    split at h <;> cases h
    rename_i S D jti subs n hcall
    split_ifs
    · exact hs.setCall _ hcall (.inr rfl) (.inl rfl) (hs.call_ok hcall :)
    · exact hs.setCall _ hcall (.inr rfl) (.inr rfl) trivial
  | postCommit i candidate => exact inv_postCommit hs h

end

/-- Before the first call, with no marker of either kind in the table. -/
theorem inv_init {db : Db} (hdb : db.Consistent) (htokens : Consistent db.verificationToken)
    (hids : ∀ u ∈ db.user, ':' ∉ u.id.toList)
    (hmarkers : ∀ r ∈ db.verificationToken, r.identifier ≠ donorProofIdentifier ∧
      ∀ S D, r.identifier ≠ linkIdentifier S D) : Inv { db } where
  db := hdb
  tokens := htokens
  ids := hids
  calls := by simp
  links := fun r hr S D hid => absurd hid ((hmarkers r hr).2 S D)
  proofs := fun r hr hid => absurd hid (hmarkers r hr).1
  linksOnce := List.nodup_nil
  proofsOnce := List.nodup_nil
  authorized := trivial

/-- In every state of a run in which proofs are presented by the accounts whose links
they were issued for, every merge was agreed to by its donor for exactly its
survivor, and no link and no proof authorised two merges. -/
theorem authorized_of_run {db : Db} (hdb : db.Consistent)
    (htokens : Consistent db.verificationToken) (hids : ∀ u ∈ db.user, ':' ∉ u.id.toList)
    (hmarkers : ∀ r ∈ db.verificationToken, r.identifier ≠ donorProofIdentifier ∧
      ∀ S D, r.identifier ≠ linkIdentifier S D)
    {actions : List Action} (hok : Along (step pairwise) PresentedBySurvivor { db } actions) :
    ∀ before s, before <+: actions → run (step pairwise) { db } before = some s →
      Authorized s.events := by
  intro before s hpre hrun
  have hinv : Inv s := by
    apply run_invariant Inv _ (inv_init hdb htokens hids hmarkers) (hok.of_prefix hpre) hrun
    intro s a s' hs hok h
    exact inv_step hs hok h
  exact hinv.authorized

end Runs

/-- Three live accounts, and the verified address of `B`. -/
def ceremonyDb : Db where
  user := [liveUser "A" none, liveUser "B" none, liveUser "C" none]
  userEmail := [⟨"e1", "B", "b@example.org", some 0, true⟩]

/-- A passkey session. -/
def passkey (userId : UserId) : Option SignIn := some ⟨userId, none, some 2, false⟩

/-- `A` asks to absorb `B`, the link is followed, and the proof is presented in the
session of `presenter`. -/
def ceremony (presenter : UserId) : List Action :=
  [.startMerge (passkey "A") true none "b@example.org", .resolveDonor 0, .mintLink 0 0 "t1",
    .completeDonorLink "t1" "A" "B" 1, .checkDonor 1, .issueDonorProof 1 2 "j1",
    .confirmMerge (passkey presenter) none ⟨"B", "j1", 300⟩ "B", .verifyDonorProof 2 3,
    .readSurvivor 2, .readDonor 2, .precompute 2, .attempt 2 4 "m1", .postCommit 2 "h"]

theorem ceremony_authorized : ∃ s, run (step markedPairwise) { db := ceremonyDb } (ceremony "A") =
    some s ∧ Event.merged "A" "B" "j1" ∈ s.events ∧ Authorized s.events := by
  have hdb : ceremonyDb.Consistent := by constructor <;> decide
  refine ⟨_, rfl, by decide, authorized_of_run hdb (by decide) (by decide) (by simp [ceremonyDb]) ?_
    (ceremony "A") _ List.prefix_rfl rfl⟩
  refine .cons trivial rfl (.cons trivial rfl (.cons trivial rfl (.cons trivial rfl
    (.cons trivial rfl (.cons trivial rfl (.cons trivial rfl (.cons ?_ rfl
    (.cons trivial rfl (.cons trivial rfl (.cons trivial rfl (.cons trivial rfl
    (.cons trivial rfl trivial))))))))))))
  intro s' S D jti h hcall
  cases Option.some.inj h
  cases Option.some.inj hcall
  exact ⟨"t1", by decide⟩

/-- The proof from `A`'s link, presented by `C`, merges `B` into `C`, for whom no link
was ever minted. -/
theorem ceremony_unauthorized : ∃ s,
    run (step markedPairwise) { db := ceremonyDb } (ceremony "C") = some s ∧
      s.events = [.merged "C" "B" "j1", .proofIssued "A" "B" "t1" "j1", .linkMinted "A" "B" "t1"] ∧
      ¬Authorized s.events := by
  refine ⟨_, rfl, rfl, fun hauth => ?_⟩
  obtain ⟨link, hissued⟩ : ∃ link, Event.proofIssued "C" "B" link "j1" ∈
      [Event.proofIssued "A" "B" "t1" "j1", .linkMinted "A" "B" "t1"] := hauth.1.1
  simp at hissued

end Minister.Ceremony

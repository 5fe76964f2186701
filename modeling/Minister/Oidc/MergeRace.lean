import Minister.Merge.Effect
import Minister.Oidc.Redemption

/-!
# Token requests during a merge

A token request reads its user, refuses a user who was merged away, and inserts the access token
some statements later. `mergeAccounts` re-points the donor's tokens, deletes its codes and
tombstones it, in one transaction. If that transaction commits after the request has read its user
and before it inserts the token, the token is the donor's, and no one re-points it any more.

The machine of the token endpoint runs side by side with merges of one donor. A merge reads the
donor's clients first and runs its transaction later; the transaction sees the tables of the
endpoint through `State.db`.
-/

namespace Minister.MergeRace

open Relational Transition
open Oidc (Crypto TokenCall AccessToken)

/-- Where a merge stands. -/
inductive MergeCall
  | precomputed (survivorUserId : UserId) (donorSubByClient : List SubAtClient)
  | committed (survivorUserId : UserId)
  | failed (error : ServerError)

/-- The tables of the endpoint with its requests, the other tables, and the merges. -/
structure State where
  oidc : Oidc.State
  rest : Db := {}
  merges : List MergeCall := []

/-- The whole database, with the columns that a merge uses. -/
def State.db (s : State) : Db :=
  { s.rest with
    user := s.oidc.users
    oidcClient := s.oidc.clients.map (·.toOidcClient)
    oidcAuthorizationCode := s.oidc.codes.map (·.toOidcAuthorizationCode)
    oidcAccessToken := s.oidc.tokens.map (·.toOidcAccessToken) }

inductive Action
  | endpoint (a : Oidc.Action)
  | startMerge (survivorUserId : UserId)
  | commitMerge (i : Nat) (inputs : MergeInputs)

section Steps

variable (crypto : Crypto) (pairwise : UserId → ClientId → String) (donorUserId : UserId)

def State.startMerge (s : State) (survivorUserId : UserId) : State :=
  { s with
    merges := s.merges ++ [
      if survivorUserId = donorUserId then .failed (.thrown "Cannot merge an account into itself")
      else .precomputed survivorUserId (precomputeSubs pairwise donorUserId s.db)] }

/-- What the transaction writes to the tables of the endpoint, given the accounts it leaves. -/
def mergedRows (survivorUserId : UserId) (users : List User) (o : Oidc.State) : Oidc.State :=
  { o with
    users
    clients := mapWhere (fun c => c.ownerUserId = some donorUserId)
      (fun c => { c with ownerUserId := some survivorUserId }) o.clients
    codes := deleteMany (fun c => c.userId = donorUserId) o.codes
    tokens := mapWhere (fun t => t.userId = donorUserId)
      (fun t => { t with userId := survivorUserId }) o.tokens }

/-- The transaction, and the ledger step that follows it. -/
def State.commitMerge (s : State) (i : Nat) (inputs : MergeInputs) : Option State :=
  match s.merges[i]? with
  | some (.precomputed survivorUserId subs) =>
    match runMergeTx survivorUserId donorUserId inputs.now inputs.recordId subs s.db with
    | .ok (db, result) =>
      let db := runPostCommit (reassignOnMerge survivorUserId inputs.handleCandidate result) db
      some ⟨mergedRows donorUserId survivorUserId db.user s.oidc, db,
        s.merges.set i (.committed survivorUserId)⟩
    | .error e => some { s with merges := s.merges.set i (.failed e) }
  | some (.committed _) | some (.failed _) | none => none

def step (s : State) : Action → Option State
  | .endpoint a => (Oidc.step crypto s.oidc a).map fun oidc => { s with oidc }
  | .startMerge survivorUserId => some (s.startMerge pairwise donorUserId survivorUserId)
  | .commitMerge i inputs => s.commitMerge donorUserId i inputs

end Steps

/-! ### The merge as the database sees it -/

section Columns

variable {R C : Type} {p : R → Bool} {q : C → Bool} {f : R → R} {g : C → C} {columns : R → C}

/-- An update reads and writes columns only. -/
theorem map_mapWhere (hp : ∀ r, p r = q (columns r)) (hf : ∀ r, columns (f r) = g (columns r))
    (t : List R) : (mapWhere p f t).map columns = mapWhere q g (t.map columns) := by
  rw [mapWhere, mapWhere, List.map_map, List.map_map]
  refine List.map_congr_left fun r _ => ?_
  simp only [Function.comp_apply, hp]
  split_ifs
  · exact hf r
  · rfl

theorem map_deleteMany (hp : ∀ r, p r = q (columns r)) (t : List R) :
    (deleteMany p t).map columns = deleteMany q (t.map columns) := by
  rw [deleteMany, deleteMany, List.filter_map]
  congr 1
  refine List.filter_congr fun r _ => ?_
  rw [Function.comp_apply, hp]

end Columns

section Runs

variable {crypto : Crypto} {pairwise : UserId → ClientId → String} {D S : UserId} {s s' : State}

/-- A merge that commits leaves the database that `mergeAccounts` leaves: what it writes to the
rows of the endpoint is what the transaction writes to their columns. -/
theorem db_commit {i : Nat} {inputs : MergeInputs} {subs : List SubAtClient} {db : Db}
    {result : MergeTxResult} (hcall : s.merges[i]? = some (.precomputed S subs))
    (htx : runMergeTx S D inputs.now inputs.recordId subs s.db = .ok (db, result))
    (h : s.commitMerge D i inputs = some s') :
    s'.db = runPostCommit (reassignOnMerge S inputs.handleCandidate result) db := by
  obtain ⟨_, _, -, -, -, -, -, -, -, -, -, -, hclient, hcode, htoken⟩ := runMergeTx_rows htx
  obtain ⟨p, entries, -, hpost, -, -⟩ :=
    runPostCommit_reassignOnMerge_frame S inputs.handleCandidate result db
  rw [State.commitMerge, hcall] at h
  simp only [htx, Option.some.injEq] at h
  subst h
  have hclients : ((mergedRows D S s.oidc.users s.oidc).clients.map (·.toOidcClient)) =
      db.oidcClient := by
    rw [hclient]
    refine map_mapWhere ?_ ?_ _
    · exact fun _ => rfl
    · exact fun _ => rfl
  have hcodes : ((mergedRows D S s.oidc.users s.oidc).codes.map (·.toOidcAuthorizationCode)) =
      db.oidcAuthorizationCode := by
    rw [hcode]
    refine map_deleteMany ?_ _
    exact fun _ => rfl
  have htokens : ((mergedRows D S s.oidc.users s.oidc).tokens.map (·.toOidcAccessToken)) =
      db.oidcAccessToken := by
    rw [htoken]
    refine map_mapWhere ?_ ?_ _
    · exact fun _ => decide_eq_decide.mpr (Option.some_inj).symm
    · exact fun _ => rfl
  rw [hpost, State.db]
  simp only [mergedRows] at hclients hcodes htokens ⊢
  rw [hclients, hcodes, htokens]

/-! ### The property -/

/-- The account was merged away. -/
def IsTombstoned (userId : UserId) (users : List User) : Prop :=
  ∃ u, findUser userId users = some u ∧ u.mergedIntoUserId ≠ none

/-- The account that the request is about to insert a token for. -/
def mintsFor : TokenCall → Option UserId
  | .minting _ _ _ user => some user.id
  | .findingClient _ | .consuming _ _ | .readingCode _ _ | .checkingCode _ _ _
  | .readingUser _ _ _ | .issued _ _ _ _ | .refused _ | .crashed => none

/-- The transaction of the merge does not fail. -/
def State.commits (s : State) (donorUserId : UserId) (i : Nat) (inputs : MergeInputs) : Bool :=
  match s.merges[i]? with
  | some (.precomputed survivorUserId subs) =>
    (runMergeTx survivorUserId donorUserId inputs.now inputs.recordId subs s.db).isOk
  | some (.committed _) | some (.failed _) | none => false

/-- A merge commits only while no request has passed its check of the donor and not yet inserted
its token. -/
def CommitsClear (donorUserId : UserId) (s : State) : Action → Prop
  | .commitMerge i inputs => s.commits donorUserId i inputs = true →
    ∀ c ∈ s.oidc.requests, mintsFor c ≠ some donorUserId
  | .endpoint _ | .startMerge _ => True

instance (donorUserId : UserId) (s : State) (a : Action) :
    Decidable (CommitsClear donorUserId s a) := by
  cases a <;> unfold CommitsClear <;> infer_instance

/-- A tombstoned donor has no token, and no request is about to insert one. -/
structure Inv (D : UserId) (o : Oidc.State) : Prop where
  tokens : IsTombstoned D o.users → ∀ t ∈ o.tokens, t.userId ≠ D
  minting : IsTombstoned D o.users → ∀ c ∈ o.requests, mintsFor c ≠ some D

section Endpoint

variable {o o' : Oidc.State} {c c' : TokenCall}

theorem isTombstoned_mapWhere {users : List User} {p : User → Bool} {f : User → User}
    (hid : ∀ u, (f u).id = u.id) (hmerged : ∀ u, (f u).mergedIntoUserId = u.mergedIntoUserId) :
    IsTombstoned D (mapWhere p f users) ↔ IsTombstoned D users := by
  have hid' : ∀ u, (if p u then f u else u).id = u.id := by
    intro u
    split_ifs
    · exact hid u
    · rfl
  rw [IsTombstoned, IsTombstoned, mapWhere, findUser_map hid']
  constructor
  · rintro ⟨u, hu, hne⟩
    obtain ⟨v, hv, rfl⟩ := Option.map_eq_some_iff.mp hu
    refine ⟨v, hv, ?_⟩
    split_ifs at hne
    · rwa [hmerged] at hne
    · exact hne
  · rintro ⟨v, hv, hne⟩
    refine ⟨_, Option.map_eq_some_iff.mpr ⟨v, hv, rfl⟩, ?_⟩
    split_ifs
    · rwa [hmerged]
    · exact hne

/-- Revoking tokens leaves them with their accounts. -/
theorem tokens_revoke {tokens : List AccessToken} {p : AccessToken → Bool} {now : Timestamp}
    (h : ∀ t ∈ tokens, t.userId ≠ D) :
    ∀ t ∈ mapWhere p (fun t => { t with revokedAt := some now }) tokens, t.userId ≠ D := by
  intro t ht
  obtain ⟨t₀, ht₀, hsame⟩ := Oidc.sameToken_of_mem_mapWhere ht
  rw [hsame]
  exact h t₀ ht₀

/-- A request is about to insert a token for an account that it has found untombstoned. -/
theorem mintsFor_nextRead (h : o.nextRead crypto c = some c') (hD : IsTombstoned D o.users) :
    mintsFor c' ≠ some D := by
  rcases Oidc.nextRead_cases h with ⟨e, rfl⟩ | ⟨r, client, rfl, rfl⟩ |
    ⟨r, client, stored, rfl, rfl⟩ | ⟨r, client, stored, rfl, rfl⟩ |
    ⟨r, client, stored, user, rfl, rfl⟩
  · exact nofun
  · exact nofun
  · exact nofun
  · exact nofun
  · -- the row that was read is the row of the account
    intro hmints
    obtain rfl : user.id = D := Option.some.inj hmints
    obtain ⟨u, hu, hmerged⟩ := hD
    rw [Oidc.State.nextRead] at h
    cases huser : findUser stored.userId o.users with
    | none => simp [huser] at h
    | some found =>
      simp only [huser] at h
      split_ifs at h with hlive
      · cases h
        rw [findUser_id huser, huser] at hu
        cases hu
        exact hmerged hlive
      · cases h

theorem inv_endpoint {a : Oidc.Action} (h : Oidc.Effect crypto o a o') (hinv : Inv D o) :
    Inv D o' := by
  have hset {i : Nat} {c : TokenCall} (hc : IsTombstoned D o.users → mintsFor c ≠ some D) :
      IsTombstoned D o.users → ∀ c' ∈ o.requests.set i c, mintsFor c' ≠ some D :=
    fun hD => forall_mem_set (hinv.minting hD) (hc hD)
  cases h with
  | ban adminId userId =>
    have hsame : IsTombstoned D (o.ban userId).users ↔ IsTombstoned D o.users :=
      isTombstoned_mapWhere (fun _ => rfl) fun _ => rfl
    exact ⟨fun hD => tokens_revoke (hinv.tokens (hsame.mp hD)),
      fun hD => hinv.minting (hsame.mp hD)⟩
  | unban adminId userId =>
    have hsame : IsTombstoned D (o.unban userId).users ↔ IsTombstoned D o.users :=
      isTombstoned_mapWhere (fun _ => rfl) fun _ => rfl
    exact ⟨fun hD => hinv.tokens (hsame.mp hD), fun hD => hinv.minting (hsame.mp hD)⟩
  | token form c hc =>
    have hnone : mintsFor c ≠ some D := by
      rcases hc with ⟨r, rfl⟩ | ⟨e, rfl⟩ <;> exact nofun
    refine ⟨hinv.tokens, fun hD c' hc' => ?_⟩
    rcases List.mem_append.mp hc' with hold | hnew
    · exact hinv.minting hD c' hold
    · rwa [List.mem_singleton.mp hnew]
  | mint i jti r client stored user hcall hcons =>
    refine ⟨fun hD t ht => ?_, hset fun _ => nofun⟩
    rcases List.mem_append.mp ht with hold | hnew
    · exact hinv.tokens hD t hold
    · rw [List.mem_singleton.mp hnew]
      exact fun hid => hinv.minting hD _ (List.mem_of_getElem? hcall) (congrArg some hid)
  | advance i c c' hcall hread => exact ⟨hinv.tokens, hset fun hD => mintsFor_nextRead hread hD⟩
  | consume | consumeRefused | mintFailed | crash => exact ⟨hinv.tokens, hset fun _ => nofun⟩
  | commit k secretHash edit clientId anonAppId clients hcall =>
    exact ⟨fun hD => tokens_revoke (hinv.tokens hD), hinv.minting⟩
  | _ => exact ⟨hinv.tokens, hinv.minting⟩

end Endpoint

/-- No merge is of the donor into itself. -/
def MergesApart (D : UserId) (merges : List MergeCall) : Prop :=
  ∀ S subs, .precomputed S subs ∈ merges → S ≠ D

theorem mergesApart_set {merges : List MergeCall} {i : Nat} {m : MergeCall}
    (h : MergesApart D merges) (hm : ∀ S subs, m ≠ .precomputed S subs) :
    MergesApart D (merges.set i m) := by
  intro S subs hmem
  rcases List.mem_or_eq_of_mem_set hmem with hold | hnew
  · exact h S subs hold
  · exact absurd hnew.symm (hm S subs)

/-- The merge re-points the donor's tokens, whatever else it does. -/
theorem inv_mergedRows {users : List User} {o : Oidc.State} (hne : S ≠ D)
    (hclear : ∀ c ∈ o.requests, mintsFor c ≠ some D) : Inv D (mergedRows D S users o) := by
  refine ⟨fun _ t ht => ?_, fun _ => hclear⟩
  obtain ⟨t₀, -, rfl⟩ := mem_mapWhere.mp ht
  split_ifs with hD
  · exact hne
  · exact fun hid => hD (decide_eq_true hid)

theorem inv_step {a : Action} (hinv : Inv D s.oidc ∧ MergesApart D s.merges)
    (hok : CommitsClear D s a) (h : step crypto pairwise D s a = some s') :
    Inv D s'.oidc ∧ MergesApart D s'.merges := by
  obtain ⟨hinv, hapart⟩ := hinv
  cases a with
  | endpoint a =>
    obtain ⟨o', hstep, rfl⟩ := Option.map_eq_some_iff.mp h
    exact ⟨inv_endpoint (Oidc.effect_of_step hstep) hinv, hapart⟩
  | startMerge survivorUserId =>
    cases h
    refine ⟨hinv, fun S subs hmem => ?_⟩
    rcases List.mem_append.mp hmem with hold | hnew
    · exact hapart S subs hold
    · split_ifs at hnew with hself
      · cases List.mem_singleton.mp hnew
      · cases List.mem_singleton.mp hnew
        exact hself
  | commitMerge i inputs =>
    simp only [step, State.commitMerge] at h
    cases hcall : s.merges[i]? with
    | none => simp [hcall] at h
    | some m =>
      cases m with
      | committed | failed => simp [hcall] at h
      | precomputed S subs =>
        simp only [hcall] at h
        split at h
        · rename_i htx
          cases h
          have hclear := hok (by simp [State.commits, hcall, htx, Except.isOk, Except.toBool])
          exact ⟨inv_mergedRows (hapart S subs (List.mem_of_getElem? hcall)) hclear,
            mergesApart_set hapart nofun⟩
        · cases h
          exact ⟨hinv, mergesApart_set hapart nofun⟩

/-- In every interleaving of token requests with merges of the donor in which no merge commits
between a request's check of the donor and its insert, a tombstoned donor has no token. -/
theorem noTokens_of_run {s₀ : State} {as : List Action} (hrequests : s₀.oidc.requests = [])
    (hmerges : s₀.merges = [])
    (hstart : IsTombstoned D s₀.oidc.users → ∀ t ∈ s₀.oidc.tokens, t.userId ≠ D)
    (hok : Along (step crypto pairwise D) (CommitsClear D) s₀ as)
    (hrun : run (step crypto pairwise D) s₀ as = some s) (hD : IsTombstoned D s.oidc.users) :
    ∀ t ∈ s.oidc.tokens, t.userId ≠ D := by
  have hinit : Inv D s₀.oidc ∧ MergesApart D s₀.merges := by
    refine ⟨⟨hstart, fun _ c hc => ?_⟩, fun S subs hmem => ?_⟩
    · rw [hrequests] at hc
      cases hc
    · rw [hmerges] at hmem
      cases hmem
  exact (run_invariant (fun s => Inv D s.oidc ∧ MergesApart D s.merges)
    (fun _ _ _ hinv hok h => inv_step hinv hok h) hinit hok hrun).1.tokens hD

end Runs

/-! ### The race -/

def alice : User := ⟨"calice0001", none, false, false, 0, none, none, none⟩

/-- The donor holds an open code. -/
def twoUsers : State := { oidc := { Oidc.openState with users := [Oidc.mallory, alice] } }

/-- A token request up to its check of the user. -/
def checkUser : List Action :=
  [.endpoint (.token Oidc.redeemForm), .endpoint (.advance 0), .endpoint (.consume 0),
    .endpoint (.advance 0), .endpoint (.advance 0), .endpoint (.advance 0)]

def mergeMallory : List Action :=
  [.startMerge "calice0001", .commitMerge 0 ⟨0, "m1", "handle"⟩]

/-- The request checks its user, the merge runs, and the request inserts its token. -/
theorem lateToken_issued : ∃ s,
    run (step Oidc.plainCrypto (fun u c => u ++ c) "cmallory01") twoUsers
      (checkUser ++ mergeMallory ++ [.endpoint (.mint 0 "jti")]) = some s ∧
    (∃ r client stored t, s.oidc.requests = [.issued r client stored t]) ∧
    s.merges = [.committed "calice0001"] ∧ IsTombstoned "cmallory01" s.oidc.users ∧
    ∃ t ∈ s.oidc.tokens, t.userId = "cmallory01" := by
  refine ⟨_, rfl, ⟨_, _, _, _, rfl⟩, rfl, ⟨_, rfl, ?_⟩, _, List.mem_cons_self, rfl⟩
  exact Option.some_ne_none _

/-- If the request comes first, the merge takes the token along. -/
theorem earlyToken_moved : ∃ s,
    run (step Oidc.plainCrypto (fun u c => u ++ c) "cmallory01") twoUsers
      (checkUser ++ [.endpoint (.mint 0 "jti")] ++ mergeMallory) = some s ∧
    IsTombstoned "cmallory01" s.oidc.users ∧ s.oidc.tokens.length = 1 ∧
    ∀ t ∈ s.oidc.tokens, t.userId ≠ "cmallory01" := by
  obtain ⟨s, hrun, hD, htokens⟩ : ∃ s,
      run (step Oidc.plainCrypto (fun u c => u ++ c) "cmallory01") twoUsers
        (checkUser ++ [.endpoint (.mint 0 "jti")] ++ mergeMallory) = some s ∧
      IsTombstoned "cmallory01" s.oidc.users ∧ s.oidc.tokens.length = 1 :=
    ⟨_, rfl, ⟨_, rfl, Option.some_ne_none _⟩, rfl⟩
  have hok : Along (step Oidc.plainCrypto (fun u c => u ++ c) "cmallory01")
      (CommitsClear "cmallory01") twoUsers
      (checkUser ++ [.endpoint (.mint 0 "jti")] ++ mergeMallory) := by decide +kernel
  have hstart : ∀ t ∈ twoUsers.oidc.tokens, t.userId ≠ "cmallory01" := nofun
  exact ⟨s, hrun, hD, htokens, noTokens_of_run rfl rfl (fun _ => hstart) hok hrun hD⟩

end Minister.MergeRace

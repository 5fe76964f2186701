import Minister.Oidc.Requests

/-!
# Redeeming authorization codes

Of any number of token requests that present one code, at most one inserts an access token:
the `updateMany` that consumes the code finds it open once, and a code is never drawn again.
The request that does has passed every check, and the token carries what the consent fixed.

The checks of a request happen at different times, so what they saw is stated of the state
they read: `Authenticated` and `Passed` look back along the run.
-/

namespace Minister.Oidc

open Relational Transition

/-- The stored code is the drawn one, except for the time it was consumed. -/
def SameCode (stored drawn : AuthorizationCode) : Prop :=
  stored = { drawn with consumedAt := stored.consumedAt }

/-- The stored token is the inserted one, except for the time it was revoked. -/
def SameToken (stored inserted : AccessToken) : Prop :=
  stored = { inserted with revokedAt := stored.revokedAt }

theorem SameToken.refl (t : AccessToken) : SameToken t t := rfl

theorem SameToken.trans {t t' t'' : AccessToken} (h : SameToken t'' t') (h' : SameToken t' t) :
    SameToken t'' t := by
  unfold SameToken at *
  rw [h, h']

theorem SameToken.revoke (t : AccessToken) (at' : Option Timestamp) :
    SameToken { t with revokedAt := at' } t := rfl

/-- No request is in progress, and the stored codes are the ones drawn so far. -/
structure State.Initial (s : State) : Prop where
  requests : s.requests = []
  lookups : s.lookups = []
  edits : s.edits = []
  drawn : s.drawn = s.codes
  codes : Consistent s.codes
  tokens : Consistent s.tokens

/-- The token request has inserted the token, for a code it read as `stored`. -/
def State.Issued (s : State) (i : Nat) (r : TokenRequest) (client : ClientRow)
    (stored : AuthorizationCode) (t : AccessToken) : Prop :=
  s.requests[i]? = some (.issued r client stored t)

/-! ### Codes -/

/-- Drawn codes differ, and every stored code was drawn. -/
def Known (codes drawn : List AuthorizationCode) : Prop :=
  (drawn.map (·.code)).Nodup ∧ ∀ row ∈ codes, ∃ c ∈ drawn, SameCode row c

/-- The code a token request has consumed. -/
def redeemed : TokenCall → Option String
  | .readingCode r _ => some r.code
  | .checkingCode r _ _ => some r.code
  | .readingUser r _ _ => some r.code
  | .minting r _ _ _ => some r.code
  | .issued r _ _ _ => some r.code
  | _ => none

/-- No two requests have consumed the same code, and a code that a request has consumed is
not open any more. -/
def Spent (codes drawn : List AuthorizationCode) (requests : List TokenCall) : Prop :=
  (requests.filterMap redeemed).Nodup ∧
    ∀ k ∈ requests.filterMap redeemed, k ∈ drawn.map (·.code) ∧
      ∀ row ∈ codes, row.code = k → row.consumedAt ≠ none

section Steps

variable {crypto : Crypto} {s s' : State} {a : Action} {c c' : TokenCall} {i : Nat}

theorem State.Initial.known (h : s.Initial) : Known s.codes s.drawn := by
  rw [h.drawn]
  refine ⟨?_, fun row hrow => ⟨row, hrow, rfl⟩⟩
  rw [List.Nodup, List.pairwise_map]
  refine h.codes.imp fun {a b} hab => ?_
  simpa [clash] using hab

/-- Consuming and dropping codes leaves the others as they were drawn. -/
theorem Known.step (h : Effect crypto s a s') (hinv : Known s.codes s.drawn) :
    Known s'.codes s'.drawn := by
  cases h with
  | issueCode code hdrawn hconsumed =>
    constructor
    · rw [List.map_append, List.map_singleton]
      refine hinv.1.append (List.nodup_singleton _) ?_
      rw [List.disjoint_singleton]
      exact hdrawn
    · intro row hrow
      rcases List.mem_append.mp hrow with hold | hnew
      · obtain ⟨c, hc, hsame⟩ := hinv.2 row hold
        exact ⟨c, List.mem_append_left _ hc, hsame⟩
      · rw [List.mem_singleton] at hnew
        exact ⟨row, List.mem_append_right _ (List.mem_singleton.mpr hnew), rfl⟩
  | consume i r client hcall hopen =>
    refine ⟨hinv.1, fun row hrow => ?_⟩
    obtain ⟨row₀, hrow₀, rfl⟩ := mem_mapWhere.mp hrow
    obtain ⟨c, hc, hsame⟩ := hinv.2 row₀ hrow₀
    refine ⟨c, hc, ?_⟩
    split_ifs
    · unfold SameCode at hsame ⊢
      rw [hsame]
    · exact hsame
  | commit k secretHash edit clientId anonAppId clients hcall =>
    exact ⟨hinv.1, fun row hrow => hinv.2 row (mem_deleteMany.mp hrow).1⟩
  | _ => exact hinv

/-- Where a read can lead. -/
theorem nextRead_cases (h : s.nextRead crypto c = some c') :
    (∃ e, c' = .refused e) ∨
    (∃ r client, c = .findingClient r ∧ c' = .consuming r client) ∨
    (∃ r client stored, c = .readingCode r client ∧ c' = .checkingCode r client stored) ∨
    (∃ r client stored, c = .checkingCode r client stored ∧ c' = .readingUser r client stored) ∨
    ∃ r client stored user, c = .readingUser r client stored ∧
      c' = .minting r client stored user := by
  unfold State.nextRead at h
  split at h
  · split at h <;> cases h
    · exact .inl ⟨_, rfl⟩
    · unfold authenticate
      split
      · exact .inr (.inl ⟨_, _, rfl, rfl⟩)
      · split
        · exact .inl ⟨_, rfl⟩
        · split_ifs
          · exact .inr (.inl ⟨_, _, rfl, rfl⟩)
          · exact .inl ⟨_, rfl⟩
  · split at h <;> cases h
    · exact .inl ⟨_, rfl⟩
    · exact .inr (.inr (.inl ⟨_, _, _, rfl, rfl⟩))
  · cases h
    unfold checkCode
    split_ifs
    case neg => exact .inr (.inr (.inr (.inl ⟨_, _, _, rfl, rfl⟩)))
    all_goals exact .inl ⟨_, rfl⟩
  · split at h
    · cases h
      exact .inl ⟨_, rfl⟩
    · split_ifs at h <;> cases h
      · exact .inr (.inr (.inr (.inr ⟨_, _, _, _, rfl, rfl⟩)))
      · exact .inl ⟨_, rfl⟩
  · cases h

/-- A read keeps the code a request has consumed, or ends the request. -/
theorem redeemed_nextRead (h : s.nextRead crypto c = some c') :
    redeemed c' = redeemed c ∨ redeemed c' = none := by
  rcases nextRead_cases h with ⟨e, rfl⟩ | ⟨r, client, rfl, rfl⟩ | ⟨r, client, stored, rfl, rfl⟩ |
    ⟨r, client, stored, rfl, rfl⟩ | ⟨r, client, stored, user, rfl, rfl⟩
  · exact .inr rfl
  · exact .inr rfl
  · exact .inl rfl
  · exact .inl rfl
  · exact .inl rfl

/-- Requests that have consumed nothing new keep the invariant. -/
theorem Spent.set {codes drawn : List AuthorizationCode} {requests : List TokenCall}
    (hinv : Spent codes drawn requests) (hcall : requests[i]? = some c)
    (hc : redeemed c' = redeemed c ∨ redeemed c' = none) :
    Spent codes drawn (requests.set i c') := by
  have hsub := filterMap_set_sublist hcall hc
  exact ⟨hinv.1.sublist hsub, fun k hk => hinv.2 k (hsub.subset hk)⟩

/-- **A code is consumed once.** The statement that consumes it finds it open, so no request
has consumed it before; and it is never drawn again. -/
theorem Spent.step (h : Effect crypto s a s') (hknown : Known s.codes s.drawn)
    (hinv : Spent s.codes s.drawn s.requests) : Spent s'.codes s'.drawn s'.requests := by
  cases h with
  | issueCode code hdrawn hconsumed =>
    refine ⟨hinv.1, fun k hk => ⟨?_, fun row hrow hkey => ?_⟩⟩
    · rw [List.map_append]
      exact List.mem_append_left _ (hinv.2 k hk).1
    · rcases List.mem_append.mp hrow with hold | hnew
      · exact (hinv.2 k hk).2 row hold hkey
      · -- the new code was not drawn before, the redeemed one was
        rw [List.mem_singleton.mp hnew] at hkey
        exact absurd (hkey ▸ (hinv.2 k hk).1) hdrawn
  | token form c hc =>
    have hnone : redeemed c = none := by
      rcases hc with ⟨r, rfl⟩ | ⟨e, rfl⟩ <;> rfl
    have hsame : (s.requests ++ [c]).filterMap redeemed = s.requests.filterMap redeemed := by
      rw [List.filterMap_append, List.filterMap_cons_none hnone, List.filterMap_nil,
        List.append_nil]
    unfold Spent
    rw [hsame]
    exact hinv
  | advance i c c' hcall hread => exact hinv.set hcall (redeemed_nextRead hread)
  | consume i r client hcall hopen =>
    -- the row was open, so no request has redeemed its code
    obtain ⟨row, hrow, hcode, hnone⟩ := hopen
    have hfree : r.code ∉ s.requests.filterMap redeemed :=
      fun hheld => (hinv.2 _ hheld).2 row hrow hcode hnone
    have hperm : (s.requests.set i (.readingCode r client)).filterMap redeemed |>.Perm
        (r.code :: s.requests.filterMap redeemed) :=
      perm_filterMap_set_take hcall rfl rfl
    refine ⟨hperm.nodup_iff.mpr (List.nodup_cons.mpr ⟨hfree, hinv.1⟩), fun k hk => ?_⟩
    constructor
    · rcases List.mem_cons.mp (hperm.subset hk) with rfl | hold
      · obtain ⟨c, hc, hsame⟩ := hknown.2 row hrow
        refine List.mem_map.mpr ⟨c, hc, ?_⟩
        rw [← hcode, hsame]
      · exact (hinv.2 k hold).1
    · -- a row with the code is closed already, or is closed now
      intro row' hrow' hkey
      obtain ⟨row₀, hrow₀, rfl⟩ := mem_mapWhere.mp hrow'
      split_ifs at hkey ⊢ with hmatch
      · exact Option.some_ne_none _
      · rcases List.mem_cons.mp (hperm.subset hk) with rfl | hold
        · intro hopen
          exact hmatch (decide_eq_true ⟨hkey, hopen⟩)
        · exact (hinv.2 k hold).2 row₀ hrow₀ hkey
  | consumeRefused _ _ _ _ hcall | mintFailed _ _ _ _ _ _ hcall | crash _ _ hcall =>
    exact hinv.set hcall (.inr rfl)
  | mint i jti r client stored user hcall hcons => exact hinv.set hcall (.inl rfl)
  | commit k secretHash edit clientId anonAppId clients hcall =>
    exact ⟨hinv.1, fun k hk => ⟨(hinv.2 k hk).1, fun row hrow =>
      (hinv.2 k hk).2 row (mem_deleteMany.mp hrow).1⟩⟩
  | _ => exact hinv

end Steps

/-! ### What a request has checked -/

/-- The request presents the id of the client and, unless the client is public, its secret. -/
def Authenticates (crypto : Crypto) (r : TokenRequest) (client : ClientRow) : Prop :=
  client.clientId = r.clientId ∧ ∀ hash, present client.clientSecretHash = some hash →
    ∃ secret, present r.clientSecret = some secret ∧ crypto.argonVerify hash secret = true

section Checks

variable (crypto : Crypto) (s₀ : State) (as : List Action) (drawn : List AuthorizationCode)
  (tokens : List AccessToken) (i : Nat) (r : TokenRequest) (client : ClientRow)
  (stored : AuthorizationCode)

/-- When the request looked for its client, the row was there and it authenticated. -/
def Authenticated : Prop :=
  Sometime (step crypto)
    (fun s => s.requests[i]? = some (.findingClient r) ∧ client ∈ s.clients ∧
      Authenticates crypto r client) s₀ as

/-- The code the request read is a drawn one. -/
def FromDrawn : Prop := ∃ c ∈ drawn, c.code = r.code ∧ SameCode stored c

/-- The request passed the checks of the code, which had not expired at the time. -/
structure Passed : Prop where
  clientId : stored.clientId = client.clientId
  redirectUri : stored.redirectUri = r.redirectUri
  verifier : verifyPkceS256 crypto r.codeVerifier stored.codeChallenge = true
  unexpired : Sometime (step crypto)
    (fun s => s.requests[i]? = some (.checkingCode r client stored) ∧
      s.now ≤ stored.expiresAt) s₀ as

/-- What a request has checked by the time it stands somewhere, and what it inserted. -/
def CallOk : TokenCall → Prop
  | .consuming r client => Authenticated crypto s₀ as i r client
  | .readingCode r client => Authenticated crypto s₀ as i r client
  | .checkingCode r client stored =>
    Authenticated crypto s₀ as i r client ∧ FromDrawn drawn r stored
  | .readingUser r client stored =>
    Authenticated crypto s₀ as i r client ∧ FromDrawn drawn r stored ∧
      Passed crypto s₀ as i r client stored
  | .minting r client stored user =>
    Authenticated crypto s₀ as i r client ∧ FromDrawn drawn r stored ∧
      Passed crypto s₀ as i r client stored ∧ user.id = stored.userId
  | .issued r client stored t =>
    Authenticated crypto s₀ as i r client ∧ FromDrawn drawn r stored ∧
      Passed crypto s₀ as i r client stored ∧
      (t.userId = stored.userId ∧ t.clientId = stored.clientId ∧ t.snapshot = stored.snapshot) ∧
      ∃ row ∈ tokens, SameToken row t
  | _ => True

end Checks

/-- Drawn codes stay drawn, and tokens stay up to their revocation. -/
structure Grows (s s' : State) : Prop where
  drawn : ∀ c ∈ s.drawn, c ∈ s'.drawn
  tokens : ∀ row ∈ s.tokens, ∃ row' ∈ s'.tokens, SameToken row' row

section CallSteps

variable {crypto : Crypto} {s₀ s s' : State} {as : List Action} {a : Action} {c c' : TokenCall}
  {i : Nat} {r : TokenRequest} {client : ClientRow} {stored : AuthorizationCode}

/-- Revoking tokens keeps them. -/
theorem exists_sameToken_mapWhere {tokens : List AccessToken} {p : AccessToken → Bool}
    {now : Timestamp} {row : AccessToken} (hrow : row ∈ tokens) :
    ∃ row' ∈ mapWhere p (fun t => { t with revokedAt := some now }) tokens, SameToken row' row := by
  refine ⟨_, mem_mapWhere.mpr ⟨row, hrow, rfl⟩, ?_⟩
  split_ifs
  · exact SameToken.revoke row _
  · exact SameToken.refl row

/-- Revoking tokens adds none. -/
theorem sameToken_of_mem_mapWhere {tokens : List AccessToken} {p : AccessToken → Bool}
    {now : Timestamp} {row' : AccessToken}
    (hrow : row' ∈ mapWhere p (fun t => { t with revokedAt := some now }) tokens) :
    ∃ row ∈ tokens, SameToken row' row := by
  obtain ⟨row, hmem, rfl⟩ := mem_mapWhere.mp hrow
  refine ⟨row, hmem, ?_⟩
  split_ifs
  · exact SameToken.revoke row _
  · exact SameToken.refl row

theorem Effect.grows (h : Effect crypto s a s') : Grows s s' := by
  cases h with
  | issueCode code hdrawn hconsumed =>
    exact ⟨fun c hc => List.mem_append_left _ hc, fun row hrow => ⟨row, hrow, rfl⟩⟩
  | ban | commit => exact ⟨fun c hc => hc, fun row hrow => exists_sameToken_mapWhere hrow⟩
  | mint i jti r client stored user hcall hcons =>
    exact ⟨fun c hc => hc, fun row hrow => ⟨row, List.mem_append_left _ hrow, rfl⟩⟩
  | _ => exact ⟨fun c hc => hc, fun row hrow => ⟨row, hrow, rfl⟩⟩

theorem FromDrawn.mono (hg : Grows s s') (h : FromDrawn s.drawn r stored) :
    FromDrawn s'.drawn r stored := by
  obtain ⟨c, hc, hsame⟩ := h
  exact ⟨c, hg.drawn c hc, hsame⟩

theorem Passed.append {bs : List Action} (h : Passed crypto s₀ as i r client stored) :
    Passed crypto s₀ (as ++ bs) i r client stored :=
  { h with unexpired := h.unexpired.append }

/-- What a request has checked stays checked. -/
theorem CallOk.mono (hg : Grows s s') (h : CallOk crypto s₀ as s.drawn s.tokens i c) :
    CallOk crypto s₀ (as ++ [a]) s'.drawn s'.tokens i c := by
  cases c with
  | findingClient r => trivial
  | consuming | readingCode => exact Sometime.append h
  | checkingCode r client stored => exact ⟨h.1.append, h.2.mono hg⟩
  | readingUser r client stored => exact ⟨h.1.append, h.2.1.mono hg, h.2.2.append⟩
  | minting r client stored user =>
    exact ⟨h.1.append, h.2.1.mono hg, h.2.2.1.append, h.2.2.2⟩
  | issued r client stored t =>
    obtain ⟨hauth, hdrawn, hpassed, hfields, row, hrow, hsame⟩ := h
    obtain ⟨row', hrow', hsame'⟩ := hg.tokens row hrow
    exact ⟨hauth.append, hdrawn.mono hg, hpassed.append, hfields, row', hrow',
      hsame'.trans hsame⟩
  | refused e => trivial
  | crashed => trivial

section

variable (hrun : run (step crypto) s₀ as = some s)

include hrun

theorem callOk_authenticate (hcall : s.requests[i]? = some (.findingClient r))
    (hclient : client ∈ s.clients) (hid : client.clientId = r.clientId) :
    CallOk crypto s₀ as s.drawn s.tokens i (authenticate crypto r client) := by
  unfold authenticate
  split
  · rename_i hpublic
    refine Sometime.last hrun ⟨hcall, hclient, hid, fun hash hhash => ?_⟩
    rw [hpublic] at hhash
    cases hhash
  · rename_i hash hhash
    split
    · trivial
    · rename_i secret hsecret
      split_ifs with hverify
      · refine Sometime.last hrun ⟨hcall, hclient, hid, fun hash' hhash' => ?_⟩
        obtain rfl : hash = hash' := Option.some_inj.mp (hhash.symm.trans hhash')
        exact ⟨secret, hsecret, hverify⟩
      · trivial

theorem callOk_checkCode (hcall : s.requests[i]? = some (.checkingCode r client stored))
    (hauth : Authenticated crypto s₀ as i r client) (hdrawn : FromDrawn s.drawn r stored) :
    CallOk crypto s₀ as s.drawn s.tokens i (checkCode crypto s.now r client stored) := by
  unfold checkCode
  split_ifs with hexpired hclient hredirect hmethod hverify
  case neg =>
    refine ⟨hauth, hdrawn, ⟨not_not.mp hclient, not_not.mp hredirect, by simpa using hverify, ?_⟩⟩
    exact Sometime.last hrun ⟨hcall, not_lt.mp hexpired⟩
  all_goals trivial

/-- What a request has read, it has checked. -/
theorem callOk_nextRead (hknown : Known s.codes s.drawn) (hcall : s.requests[i]? = some c)
    (hok : CallOk crypto s₀ as s.drawn s.tokens i c) (hread : s.nextRead crypto c = some c') :
    CallOk crypto s₀ as s.drawn s.tokens i c' := by
  cases c with
  | findingClient r =>
    simp only [State.nextRead] at hread
    split at hread
    · cases hread
      trivial
    · rename_i client hfind
      cases hread
      exact callOk_authenticate hrun hcall (List.mem_of_find?_eq_some hfind)
        (by simpa using List.find?_some hfind)
  | readingCode r client =>
    simp only [State.nextRead] at hread
    split at hread
    · cases hread
      trivial
    · rename_i stored hfind
      cases hread
      obtain ⟨c, hc, hsame⟩ := hknown.2 stored (List.mem_of_find?_eq_some hfind)
      have hcode : stored.code = r.code := by simpa using List.find?_some hfind
      refine ⟨hok, c, hc, ?_, hsame⟩
      rw [← hcode, hsame]
  | checkingCode r client stored =>
    cases hread
    exact callOk_checkCode hrun hcall hok.1 hok.2
  | readingUser r client stored =>
    simp only [State.nextRead] at hread
    split at hread
    · cases hread
      trivial
    · rename_i user hfind
      split_ifs at hread
      · cases hread
        exact ⟨hok.1, hok.2.1, hok.2.2, by simpa using List.find?_some hfind⟩
      · cases hread
        trivial
  | _ => cases hread

/-- One step keeps what every request has checked. -/
theorem callOk_step (h : Effect crypto s a s') (hknown : Known s.codes s.drawn)
    (hinv : ∀ i c, s.requests[i]? = some c → CallOk crypto s₀ as s.drawn s.tokens i c) :
    ∀ i c, s'.requests[i]? = some c → CallOk crypto s₀ (as ++ [a]) s'.drawn s'.tokens i c := by
  have hgrows := h.grows
  have hmono : ∀ i c, s.requests[i]? = some c →
      CallOk crypto s₀ (as ++ [a]) s'.drawn s'.tokens i c :=
    fun i c hc => (hinv i c hc).mono hgrows
  cases h with
  | token form c hc =>
    refine forall_getElem?_append hmono ?_
    rcases hc with ⟨r, rfl⟩ | ⟨e, rfl⟩ <;> trivial
  | advance i c c' hcall hread =>
    exact forall_getElem?_set hmono
      ((callOk_nextRead hrun hknown hcall (hinv i c hcall) hread).mono hgrows)
  | consume i r client hcall hopen =>
    exact forall_getElem?_set hmono (Sometime.append (hinv i _ hcall))
  | consumeRefused | mintFailed | crash => exact forall_getElem?_set hmono trivial
  | mint i jti r client stored user hcall hcons =>
    obtain ⟨hauth, hdrawn, hpassed, huser⟩ := hmono i _ hcall
    refine forall_getElem?_set hmono ⟨hauth, hdrawn, hpassed, ?_, ?_⟩
    · exact ⟨huser, hpassed.clientId.symm, rfl⟩
    · exact ⟨_, List.mem_append_right _ (List.mem_singleton.mpr rfl), SameToken.refl _⟩
  | _ => exact hmono

end

/-! ### Tokens -/

/-- A request that has inserted its token is done. -/
theorem Effect.issued_stays {t : AccessToken} (h : Effect crypto s a s')
    (hi : s.Issued i r client stored t) : s'.Issued i r client stored t := by
  have hset {k : Nat} {c c' : TokenCall} (hk : s.requests[k]? = some c)
      (hc : c ≠ .issued r client stored t) :
      (s.requests.set k c')[i]? = some (.issued r client stored t) := by
    have hne : k ≠ i := by
      rintro rfl
      exact hc (Option.some_inj.mp (hk.symm.trans hi))
    rwa [List.getElem?_set_ne hne]
  cases h with
  | token form c hc =>
    exact (List.getElem?_append_left (List.getElem?_eq_some_iff.mp hi).1).trans hi
  | advance k c c' hcall hread =>
    refine hset hcall ?_
    rintro rfl
    cases hread
  | consume _ _ _ hcall | consumeRefused _ _ _ _ hcall | mint _ _ _ _ _ _ hcall
  | mintFailed _ _ _ _ _ _ hcall => exact hset hcall nofun
  | crash k c hcall hnot => exact hset hcall (hnot r client stored t)
  | _ => exact hi

/-- Every token was there at the start or was inserted by a request. -/
def Minted (s₀ s : State) : Prop :=
  ∀ row ∈ s.tokens, (∃ row₀ ∈ s₀.tokens, row₀.jti = row.jti) ∨
    ∃ i r client stored t, s.Issued i r client stored t ∧ SameToken row t

theorem SameToken.jti_eq {t t' : AccessToken} (h : SameToken t' t) : t'.jti = t.jti := by
  rw [h]

theorem Minted.step (h : Effect crypto s a s') (hinv : Minted s₀ s) : Minted s₀ s' := by
  -- a stored token that is an old one, possibly revoked since
  have hold {row row' : AccessToken} (hrow : row ∈ s.tokens) (hsame : SameToken row' row) :
      (∃ row₀ ∈ s₀.tokens, row₀.jti = row'.jti) ∨
        ∃ i r client stored t, s'.Issued i r client stored t ∧ SameToken row' t := by
    rcases hinv row hrow with ⟨row₀, hrow₀, hjti⟩ | ⟨i, r, client, stored, t, hi, ht⟩
    · exact .inl ⟨row₀, hrow₀, hjti.trans hsame.jti_eq.symm⟩
    · exact .inr ⟨i, r, client, stored, t, h.issued_stays hi, hsame.trans ht⟩
  intro row hrow
  cases h with
  | ban | commit =>
    obtain ⟨row₀, hrow₀, hsame⟩ := sameToken_of_mem_mapWhere hrow
    exact hold hrow₀ hsame
  | mint k jti r client stored user hcall hcons =>
    rcases List.mem_append.mp hrow with hrow | hnew
    · exact hold hrow (SameToken.refl row)
    · obtain rfl := List.mem_singleton.mp hnew
      have hlt := (List.getElem?_eq_some_iff.mp hcall).1
      exact .inr ⟨k, r, client, stored, _, List.getElem?_set_self hlt, SameToken.refl _⟩
  | _ => exact hold hrow (SameToken.refl row)

end CallSteps

/-! ### Every run -/

/-- What the requests of a run keep. -/
structure Inv (crypto : Crypto) (s₀ : State) (as : List Action) (s : State) : Prop where
  known : Known s.codes s.drawn
  spent : Spent s.codes s.drawn s.requests
  calls : ∀ i c, s.requests[i]? = some c → CallOk crypto s₀ as s.drawn s.tokens i c
  minted : Minted s₀ s

section Runs

variable {crypto : Crypto} {s₀ s : State} {as : List Action}

theorem State.Initial.inv (h : s₀.Initial) : Inv crypto s₀ [] s₀ where
  known := h.known
  spent := by
    rw [h.requests]
    exact ⟨List.nodup_nil, fun k hk => absurd hk List.not_mem_nil⟩
  calls := by
    intro i c hc
    rw [h.requests] at hc
    cases hc
  minted := fun row hrow => .inl ⟨row, hrow, rfl⟩

theorem inv_of_run (h₀ : s₀.Initial) (hrun : run (step crypto) s₀ as = some s) :
    Inv crypto s₀ as s := by
  refine run_invariant_history (Inv crypto s₀) h₀.inv ?_ hrun
  intro as s₁ a s₂ hrun₁ hinv hstep
  have heffect := effect_of_step hstep
  exact ⟨hinv.known.step heffect, hinv.spent.step heffect hinv.known,
    callOk_step hrun₁ heffect hinv.known hinv.calls, hinv.minted.step heffect⟩

end Runs

/-- The token a request inserted is for the code it presented: the request authenticated as
the client of the code, presented its redirect URI and a verifier that hashes to its
challenge, and checked it before it expired. The token carries what the code does. -/
structure IssuedFor (crypto : Crypto) (s₀ : State) (as : List Action) (i : Nat)
    (r : TokenRequest) (client : ClientRow) (code : AuthorizationCode) (t : AccessToken) :
    Prop where
  presented : r.code = code.code
  authenticated : Authenticated crypto s₀ as i r client
  clientId : client.clientId = code.clientId
  redirectUri : r.redirectUri = code.redirectUri
  verifier : crypto.sha256 (Codec.utf8 r.codeVerifier) = bufferFromBase64url code.codeChallenge
  unexpired : Sometime (step crypto)
    (fun s => (∃ stored, s.requests[i]? = some (.checkingCode r client stored)) ∧
      s.now ≤ code.expiresAt) s₀ as
  token : t.userId = code.userId ∧ t.clientId = code.clientId ∧ t.snapshot = code.snapshot

/-- **Authorization codes are single-use and bound.** In every run of any number of token
requests, userinfo requests, consents and admin actions: two requests that presented one
code have not both inserted a token; a request that has inserted one did so for a code that
was drawn; and no token has another origin. -/
theorem issued_of_run {crypto : Crypto} {s₀ s : State} {as : List Action} (h₀ : s₀.Initial)
    (hrun : run (step crypto) s₀ as = some s) :
    (∀ i j r r' client client' stored stored' t t', s.Issued i r client stored t →
      s.Issued j r' client' stored' t' → r.code = r'.code → i = j) ∧
    (∀ i r client stored t, s.Issued i r client stored t →
      (∃ row ∈ s.tokens, SameToken row t) ∧
        ∃ code ∈ s.drawn, IssuedFor crypto s₀ as i r client code t) ∧
    ∀ row ∈ s.tokens, (∃ row₀ ∈ s₀.tokens, row₀.jti = row.jti) ∨
      ∃ i r client stored t, s.Issued i r client stored t ∧ SameToken row t := by
  have hinv := inv_of_run h₀ hrun
  refine ⟨?_, ?_, hinv.minted⟩
  · intro i j r r' client client' stored stored' t t' hi hj hcode
    exact eq_of_nodup_filterMap hinv.spent.1 hi hj rfl (congrArg some hcode.symm)
  · intro i r client stored t hi
    obtain ⟨hauth, ⟨code, hcode, hkey, hsame⟩, hpassed, ⟨huser, hclient, hsnapshot⟩, hrow⟩ :=
      hinv.calls i _ hi
    refine ⟨hrow, code, hcode, hkey.symm, hauth, ?_, ?_, ?_, ?_, ?_, ?_, ?_⟩
    · rw [← hpassed.clientId, hsame]
    · rw [← hpassed.redirectUri, hsame]
    · rw [verifyPkceS256_iff.mp hpassed.verifier, hsame]
    · obtain ⟨bs, s₁, hpre, hrun₁, hcall, hnow⟩ := hpassed.unexpired
      rw [hsame] at hnow
      exact ⟨bs, s₁, hpre, hrun₁, ⟨stored, hcall⟩, hnow⟩
    · rw [huser, hsame]
    · rw [hclient, hsame]
    · rw [hsnapshot, hsame]

section Race

/-- A hash and a secret check to evaluate runs with. -/
def plainCrypto : Crypto := ⟨id, fun _ _ => false⟩

def mallory : User := ⟨"cmallory01", none, false, false, 0, none, none, none⟩

def forumClient : ClientRow :=
  { id := "cforum0001", clientId := "forum", ownerUserId := none, anonAppId := none,
    clientSecretHash := none, name := "Forum", redirectUris := ["https://forum.example/cb"],
    allowedScopes := ["openid"] }

/-- A code whose challenge is the encoding of `abc`. -/
def openCode : AuthorizationCode :=
  { code := "code", clientId := "forum", userId := "cmallory01",
    redirectUri := "https://forum.example/cb",
    snapshot := ⟨["openid"], [], false, false, false, none, none⟩, nonce := "nonce",
    codeChallenge := "YWJj", codeChallengeMethod := "S256", expiresAt := 60000,
    consumedAt := none }

def redeemForm : TokenForm :=
  { code := some "code", redirectUri := some "https://forum.example/cb",
    codeVerifier := some "abc", clientId := some "forum", clientSecret := none }

def openState : State :=
  { users := [mallory], clients := [forumClient], codes := [openCode], drawn := [openCode] }

/-- Two requests present one code; both find their client before either consumes it. -/
def raceForCode : List Action :=
  [.token redeemForm, .token redeemForm, .advance 0, .advance 1, .consume 0, .consume 1,
    .advance 0, .tick 1000, .advance 0, .advance 0, .mint 0 "jti"]

theorem raceForCode_issued : ∃ s, run (step plainCrypto) openState raceForCode = some s ∧
    (∃ r client stored t, s.Issued 0 r client stored t ∧ t.userId = "cmallory01") ∧
    (∀ i j r r' client client' stored stored' t t', s.Issued i r client stored t →
      s.Issued j r' client' stored' t' → r.code = r'.code → i = j) ∧
    (∀ i r client stored t, s.Issued i r client stored t →
      (∃ row ∈ s.tokens, SameToken row t) ∧
        ∃ code ∈ s.drawn, IssuedFor plainCrypto openState raceForCode i r client code t) ∧
    ∀ row ∈ s.tokens, (∃ row₀ ∈ openState.tokens, row₀.jti = row.jti) ∨
      ∃ i r client stored t, s.Issued i r client stored t ∧ SameToken row t := by
  have hinitial : openState.Initial := ⟨rfl, rfl, rfl, rfl, by decide, by decide⟩
  exact ⟨_, rfl, ⟨_, _, _, _, rfl, rfl⟩, issued_of_run hinitial rfl⟩

end Race

end Minister.Oidc

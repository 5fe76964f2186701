import Minister.Oidc.Redemption

/-!
# Revocation against requests in flight

A ban revokes the access tokens of a user, and an edit of a client revokes its access tokens
and drops its codes, each in one transaction. A token request inserts its token in a
statement of its own, after all its checks, and checks neither the ban nor that its code is
still there. So a token can be inserted after the revocation that was meant to cover it.

Both results below say that this is all that can go wrong. A set of tokens is `Dead` if the
ones that are stored are revoked and none that a later userinfo request has read is not;
it stays dead as long as no token of the set is inserted.
-/

namespace Minister.Oidc

open Relational Transition

/-! ### Dead tokens -/

/-- What a userinfo request may hold of a dead token. -/
def LookupOk (P : AccessToken → Prop) : UserinfoCall → Prop
  | .checkingToken row _ => P row → row.revokedAt ≠ none
  | .answered row => ¬P row
  | _ => True

/-- Every stored token of the set is revoked, and so is every one that a request from the
`n`th on has read. -/
structure Dead (P : AccessToken → Prop) (n : Nat) (s : State) : Prop where
  tokens : ∀ t ∈ s.tokens, P t → t.revokedAt ≠ none
  lookups : ∀ j c, s.lookups[j]? = some c → n ≤ j → LookupOk P c

section Dead

variable {crypto : Crypto} {s s' : State} {a : Action} {P : AccessToken → Prop} {n : Nat}

/-- Revoking more tokens revokes nothing less. -/
theorem forall_mem_revoke {tokens : List AccessToken} {p : AccessToken → Bool} {now : Timestamp}
    (h : ∀ t ∈ tokens, P t → t.revokedAt ≠ none) :
    ∀ t ∈ mapWhere p (fun t => { t with revokedAt := some now }) tokens,
      P t → t.revokedAt ≠ none := by
  intro t ht hPt
  obtain ⟨t₀, ht₀, rfl⟩ := mem_mapWhere.mp ht
  split_ifs at hPt ⊢
  · exact Option.some_ne_none _
  · exact h t₀ ht₀ hPt

/-- A token that is revoked is not answered for. -/
theorem lookupOk_checkToken {row : AccessToken} {user : User}
    (h : LookupOk P (.checkingToken row user)) : LookupOk P (s.checkToken row user) := by
  unfold State.checkToken
  split_ifs with hrevoked hexpired hmerged
  · trivial
  · trivial
  · trivial
  · intro hrow
    exact hrevoked (Option.isSome_iff_ne_none.mpr (h hrow))

/-- A set of tokens stays dead as long as no token of it is inserted. -/
theorem Dead.step (h : Effect crypto s a s')
    (hmint : ∀ i jti r client stored user, a = .mint i jti →
      s.requests[i]? = some (.minting r client stored user) →
      Consistent (s.tokens ++ [newToken jti s.now client stored user]) →
      ¬P (newToken jti s.now client stored user))
    (hinv : Dead P n s) : Dead P n s' := by
  have hlookup {j : Nat} {c : UserinfoCall} (hc : n ≤ j → LookupOk P c) :
      ∀ k c', (s.lookups.set j c)[k]? = some c' → n ≤ k → LookupOk P c' :=
    forall_getElem?_set hinv.lookups hc
  cases h with
  | ban | commit => exact ⟨forall_mem_revoke hinv.tokens, hinv.lookups⟩
  | userinfo bearer c hc =>
    refine ⟨hinv.tokens, forall_getElem?_append hinv.lookups fun _ => ?_⟩
    rcases hc with ⟨jti, rfl⟩ | ⟨description, rfl⟩ <;> trivial
  | mint i jti r client stored user hcall hcons =>
    refine ⟨fun t ht hPt => ?_, hinv.lookups⟩
    rcases List.mem_append.mp ht with hold | hnew
    · exact hinv.tokens t hold hPt
    · rw [List.mem_singleton.mp hnew] at hPt
      exact absurd hPt (hmint i jti r client stored user rfl hcall hcons)
  | tokenMissing j description => exact ⟨hinv.tokens, hlookup fun _ => trivial⟩
  | readToken j jti row user hcall hrow hjti =>
    exact ⟨hinv.tokens, hlookup fun _ => hinv.tokens row hrow⟩
  | checkToken j row user hcall =>
    exact ⟨hinv.tokens, hlookup fun hj => lookupOk_checkToken (hinv.lookups j _ hcall hj)⟩
  | _ => exact ⟨hinv.tokens, hinv.lookups⟩

/-- Right after a transaction no request has started later. -/
theorem Dead.of_tokens (h : ∀ t ∈ s.tokens, P t → t.revokedAt ≠ none) :
    Dead P s.lookups.length s := by
  refine ⟨h, fun j c hc hj => ?_⟩
  exact absurd (List.getElem?_eq_some_iff.mp hc).1 (by omega)

end Dead

/-! ### Bans -/

/-- A token is not inserted for a user who is banned. -/
def MintsForUnbanned (s : State) (a : Action) : Prop :=
  ∀ i jti r client stored user, a = .mint i jti →
    s.requests[i]? = some (.minting r client stored user) →
    ∀ u ∈ s.users, u.id = user.id → u.isBanned = false

/-- What holds from a ban on: the user is banned and their tokens are dead. -/
structure BannedInv (userId : UserId) (n : Nat) (s : State) : Prop where
  banned : ∃ u ∈ s.users, u.id = userId ∧ u.isBanned = true
  dead : Dead (fun t => t.userId = userId) n s

section Ban

variable {crypto : Crypto} {s s' : State} {a : Action} {userId adminId : UserId} {n : Nat}

/-- Only an unban of the user lifts the ban. -/
theorem banned_step (h : Effect crypto s a s')
    (ha : ∀ adminId, a ≠ .setUserBanned adminId userId false)
    (hbanned : ∃ u ∈ s.users, u.id = userId ∧ u.isBanned = true) :
    ∃ u ∈ s'.users, u.id = userId ∧ u.isBanned = true := by
  obtain ⟨u, hu, hid, hflag⟩ := hbanned
  cases h with
  | ban adminId target =>
    refine ⟨_, mem_mapWhere.mpr ⟨u, hu, rfl⟩, ?_⟩
    split_ifs
    · exact ⟨hid, rfl⟩
    · exact ⟨hid, hflag⟩
  | unban adminId target =>
    refine ⟨u, mem_mapWhere.mpr ⟨u, hu, if_neg fun htarget => ?_⟩, hid, hflag⟩
    have hsame : u.id = target := (of_decide_eq_true htarget).1
    exact ha adminId (by rw [← hid, hsame])
  | _ => exact ⟨u, hu, hid, hflag⟩

theorem BannedInv.step (h : Effect crypto s a s')
    (ha : ∀ adminId, a ≠ .setUserBanned adminId userId false) (hok : MintsForUnbanned s a)
    (hinv : BannedInv userId n s) : BannedInv userId n s' := by
  refine ⟨banned_step h ha hinv.banned, hinv.dead.step h ?_⟩
  intro i jti r client stored user hmint hcall _ huser
  obtain ⟨u, hu, hid, hflag⟩ := hinv.banned
  have hfree := hok i jti r client stored user hmint hcall u hu (hid.trans huser.symm)
  rw [hflag] at hfree
  cases hfree

theorem BannedInv.of_ban (h : s.setUserBanned adminId userId true = .ok s') :
    BannedInv userId s'.lookups.length s' := by
  obtain ⟨-, -, hfound, rfl⟩ := setUserBanned_eq_ok_iff.mp h
  constructor
  · obtain ⟨u, hu, htarget⟩ := List.any_eq_true.mp hfound
    refine ⟨_, mem_mapWhere.mpr ⟨u, hu, if_pos htarget⟩, ?_, rfl⟩
    exact (of_decide_eq_true htarget).1
  · refine Dead.of_tokens fun t ht huser => ?_
    obtain ⟨t₀, -, rfl⟩ := mem_mapWhere.mp ht
    split_ifs at huser ⊢ with hopen
    · exact Option.some_ne_none _
    · intro hnone
      exact hopen (decide_eq_true ⟨huser, hnone⟩)

end Ban

/-- **A ban cuts the user off**, if no token is inserted for a banned user: a userinfo
request that starts after the ban has committed does not return the user's claims before an
admin unbans them. -/
theorem no_claims_while_banned {crypto : Crypto} {s₁ s₂ s : State} {as : List Action}
    {adminId userId : UserId} (hban : s₁.setUserBanned adminId userId true = .ok s₂)
    (hok : Along (step crypto) MintsForUnbanned s₂ as)
    (hunban : ∀ a ∈ as, ∀ adminId, a ≠ .setUserBanned adminId userId false)
    (hrun : run (step crypto) s₂ as = some s) :
    ∀ j row, s₂.lookups.length ≤ j → s.lookups[j]? = some (.answered row) →
      row.userId ≠ userId := by
  have hinv : BannedInv userId s₂.lookups.length s := by
    refine run_invariant (BannedInv userId s₂.lookups.length) ?_ (BannedInv.of_ban hban)
      (hok.and_mem hunban) hrun
    intro s a s' hs hcond hstep
    exact hs.step (effect_of_step hstep) hcond.2 hcond.1
  intro j row hj hrow
  exact hinv.dead.lookups j _ hrow hj

section BanRuns

/-- A token request from its arrival to the insert. -/
def redemption : List Action :=
  [.token redeemForm, .advance 0, .consume 0, .advance 0, .advance 0, .advance 0, .mint 0 "jti"]

/-- A userinfo request with the token. -/
def userinfoRequest : List Action :=
  [.userinfo (.verified (some "access") (some "jti") (some "sub")), .lookUp 0, .lookUp 0]

/-- A code that is not redeemed when its user is banned can be redeemed afterwards, and
userinfo then answers. -/
theorem banned_claims : ∃ s₂ s row,
    openState.setUserBanned "cadmin0001" "cmallory01" true = .ok s₂ ∧
    run (step plainCrypto) s₂ (redemption ++ userinfoRequest) = some s ∧
    (∀ a ∈ redemption ++ userinfoRequest,
      ∀ adminId, a ≠ .setUserBanned adminId "cmallory01" false) ∧
    s₂.lookups.length ≤ 0 ∧ s.lookups[0]? = some (.answered row) ∧ row.userId = "cmallory01" :=
  ⟨_, _, _, rfl, rfl, by simp [redemption, userinfoRequest], Nat.le_refl 0, rfl, rfl⟩

/-- A token that was inserted before the ban is refused. -/
theorem banned_refused : ∃ s₁ s₂ s,
    run (step plainCrypto) openState redemption = some s₁ ∧ s₁.tokens.map (·.revokedAt) = [none] ∧
    s₁.setUserBanned "cadmin0001" "cmallory01" true = .ok s₂ ∧
    run (step plainCrypto) s₂ userinfoRequest = some s ∧
    s.lookups[0]? = some (.unauthorized "Token has been revoked") ∧
    ∀ j row, s₂.lookups.length ≤ j → s.lookups[j]? = some (.answered row) →
      row.userId ≠ "cmallory01" := by
  obtain ⟨s₁, s₂, s, hredeemed, hopen, hban, hrun, hrefused⟩ : ∃ s₁ s₂ s,
      run (step plainCrypto) openState redemption = some s₁ ∧
      s₁.tokens.map (·.revokedAt) = [none] ∧
      s₁.setUserBanned "cadmin0001" "cmallory01" true = .ok s₂ ∧
      run (step plainCrypto) s₂ userinfoRequest = some s ∧
      s.lookups[0]? = some (.unauthorized "Token has been revoked") :=
    ⟨_, _, _, rfl, rfl, rfl, rfl, rfl⟩
  refine ⟨s₁, s₂, s, hredeemed, hopen, hban, hrun, hrefused, ?_⟩
  refine no_claims_while_banned hban (along_of_forall_mem ?_) (by simp [userinfoRequest]) hrun
  rintro a ha s i jti r client stored user rfl
  simp [userinfoRequest] at ha

end BanRuns

/-! ### Edits of clients -/

/-- A token is inserted only while its code is still stored. -/
def MintsWithCode (s : State) (a : Action) : Prop :=
  ∀ i jti r client stored user, a = .mint i jti →
    s.requests[i]? = some (.minting r client stored user) → ∃ c ∈ s.codes, c.code = r.code

section Edit

variable {crypto : Crypto} {s₀ s s' : State} {a : Action} {as : List Action} {code : String}
  {clientId : ClientId} {n : Nat}

theorem consistent_tokens_step (h : Effect crypto s a s') (hcons : Consistent s.tokens) :
    Consistent s'.tokens := by
  cases h with
  | ban | commit => exact hcons.mapWhere_of_clash _ fun _ _ => rfl
  | mint i jti r client stored user hcall hcons' => exact hcons'
  | _ => exact hcons

theorem consistent_tokens_of_run (h₀ : s₀.Initial) (hrun : run (step crypto) s₀ as = some s) :
    Consistent s.tokens :=
  run_invariant_always (fun s => Consistent s.tokens)
    (fun _ _ _ hcons hstep => consistent_tokens_step (effect_of_step hstep) hcons) h₀.tokens hrun

/-- A request that has inserted its token did so before, or inserts it now. -/
theorem Effect.issued_cases {i : Nat} {r : TokenRequest} {client : ClientRow}
    {stored : AuthorizationCode} {t : AccessToken} (h : Effect crypto s a s')
    (hi : s'.Issued i r client stored t) :
    s.Issued i r client stored t ∨ ∃ jti user, a = .mint i jti ∧
      s.requests[i]? = some (.minting r client stored user) := by
  have hset {k : Nat} {c' : TokenCall} (hk : (s.setRequest k c').Issued i r client stored t)
      (hc' : c' ≠ .issued r client stored t) : s.Issued i r client stored t := by
    unfold State.Issued State.setRequest at hk
    rw [List.getElem?_set] at hk
    split_ifs at hk
    · exact absurd (Option.some_inj.mp hk) hc'
    · exact hk
  cases h with
  | token form c hc =>
    left
    have hk : (s.requests ++ [c])[i]? = some (.issued r client stored t) := hi
    rw [List.getElem?_append] at hk
    split_ifs at hk with hlt
    · exact hk
    · rcases hc with ⟨r', rfl⟩ | ⟨e, rfl⟩ <;>
        · rw [List.getElem?_singleton] at hk
          split_ifs at hk
          cases hk
  | advance k c c' hcall hread =>
    refine .inl (hset hi ?_)
    rcases nextRead_cases hread with ⟨e, rfl⟩ | ⟨r', client', rfl, rfl⟩ |
      ⟨r', client', stored', rfl, rfl⟩ | ⟨r', client', stored', rfl, rfl⟩ |
      ⟨r', client', stored', user, rfl, rfl⟩ <;> exact nofun
  | consume | consumeRefused | mintFailed | crash => exact .inl (hset hi nofun)
  | mint k jti r' client' stored' user hcall hcons =>
    by_cases hk : k = i
    · subst hk
      have hlt := (List.getElem?_eq_some_iff.mp hcall).1
      have heq := (List.getElem?_set_self hlt).symm.trans hi
      cases heq
      exact .inr ⟨jti, user, rfl, hcall⟩
    · exact .inl ((List.getElem?_set_ne hk).symm.trans hi)
  | _ => exact .inl hi

/-- The id of a token that a request inserted for the code. -/
def OfCode (s : State) (code jti : String) : Prop :=
  ∃ i r client stored t, s.Issued i r client stored t ∧ r.code = code ∧ t.jti = jti

/-- What holds from an edit on, for a code that was drawn before: the code is gone for good,
the tokens inserted for it are the `old` ones, and those are dead. -/
structure EditedInv (code : String) (old : String → Prop) (n : Nat) (s : State) : Prop where
  gone : ∀ row ∈ s.codes, row.code ≠ code
  drawn : code ∈ s.drawn.map (·.code)
  issued : ∀ jti, OfCode s code jti → old jti
  stored : ∀ jti, old jti → ∃ row ∈ s.tokens, row.jti = jti
  dead : Dead (fun t => old t.jti) n s

/-- A code that was drawn and is not stored any more stays away. -/
theorem gone_step (h : Effect crypto s a s') (hdrawn : code ∈ s.drawn.map (·.code))
    (hgone : ∀ row ∈ s.codes, row.code ≠ code) : ∀ row ∈ s'.codes, row.code ≠ code := by
  intro row hrow
  cases h with
  | issueCode c hfresh hconsumed =>
    rcases List.mem_append.mp hrow with hold | hnew
    · exact hgone row hold
    · rintro rfl
      rw [List.mem_singleton.mp hnew] at hdrawn
      exact hfresh hdrawn
  | consume i r client hcall hopen =>
    obtain ⟨row₀, hrow₀, rfl⟩ := mem_mapWhere.mp hrow
    split_ifs
    · exact hgone row₀ hrow₀
    · exact hgone row₀ hrow₀
  | commit k secretHash edit clientId anonAppId clients hcall =>
    exact hgone row (mem_deleteMany.mp hrow).1
  | _ => exact hgone row hrow

/-- Two tokens of a consistent table do not share an id. -/
theorem jti_ne_of_consistent {tokens : List AccessToken} {row t : AccessToken}
    (h : Consistent (tokens ++ [t])) (hrow : row ∈ tokens) : row.jti ≠ t.jti := by
  have hclash := (consistent_append_singleton.mp h).2 row hrow
  simpa [clash] using hclash

theorem EditedInv.step {old : String → Prop} (h : Effect crypto s a s') (hok : MintsWithCode s a)
    (hinv : EditedInv code old n s) : EditedInv code old n s' where
  gone := gone_step h hinv.drawn hinv.gone
  drawn := by
    obtain ⟨c, hc, hcode⟩ := List.mem_map.mp hinv.drawn
    exact List.mem_map.mpr ⟨c, h.grows.drawn c hc, hcode⟩
  issued := by
    rintro jti ⟨i, r, client, stored, t, hissued, hcode, hjti⟩
    rcases h.issued_cases hissued with hbefore | ⟨jti', user, hmint, hcall⟩
    · exact hinv.issued jti ⟨i, r, client, stored, t, hbefore, hcode, hjti⟩
    · -- the code is gone, so the insert does not happen
      obtain ⟨c, hc, hsame⟩ := hok i jti' r client stored user hmint hcall
      exact absurd (hsame.trans hcode) (hinv.gone c hc)
  stored := by
    intro jti hold
    obtain ⟨row, hrow, hjti⟩ := hinv.stored jti hold
    obtain ⟨row', hrow', hsame⟩ := h.grows.tokens row hrow
    exact ⟨row', hrow', hsame.jti_eq.trans hjti⟩
  dead := by
    refine hinv.dead.step h ?_
    intro i jti r client stored user _ _ hcons hold
    obtain ⟨row, hrow, hjti⟩ := hinv.stored _ hold
    exact jti_ne_of_consistent hcons hrow hjti

/-- Drawn codes differ, so what is known of one of a request's codes is known of the other. -/
theorem Known.clientId_eq {codes drawn : List AuthorizationCode} (h : Known codes drawn)
    {c row : AuthorizationCode} {r : TokenRequest} (hc : c ∈ drawn) (hrow : FromDrawn drawn r row)
    (hcode : r.code = c.code) : row.clientId = c.clientId := by
  obtain ⟨c', hc', hkey, hsame⟩ := hrow
  obtain rfl : c' = c := List.inj_on_of_nodup_map h.1 hc' hc (hkey.trans hcode)
  rw [hsame]

/-- Tokens obtained for a code are stored, and belong to the client the code was drawn for. -/
theorem exists_token_of_code {c : AuthorizationCode} {jti : String} (h₀ : s₀.Initial)
    (hrun : run (step crypto) s₀ as = some s) (hc : c ∈ s.drawn) (h : OfCode s c.code jti) :
    ∃ row ∈ s.tokens, row.jti = jti ∧ row.clientId = c.clientId := by
  have hinv := inv_of_run h₀ hrun
  obtain ⟨i, r, client, stored, t, hissued, hcode, hjti⟩ := h
  obtain ⟨-, hfrom, -, ⟨-, htoken, -⟩, row, hrow, hsame⟩ := hinv.calls i _ hissued
  refine ⟨row, hrow, hsame.jti_eq.trans hjti, ?_⟩
  rw [hsame]
  exact htoken.trans (hinv.known.clientId_eq hc hfrom hcode)

/-- The transaction of an edit drops the codes of the client and revokes its tokens. -/
theorem editedInv_of_commit {k : Nat} {secretHash : String} {c : AuthorizationCode}
    (h₀ : s₀.Initial) (hrun : run (step crypto) s₀ as = some s)
    (hcommit : step crypto s (.commit k secretHash) = some s')
    (hdone : s'.edits[k]? = some (.committed clientId)) (hc : c ∈ s.drawn)
    (hclient : c.clientId = clientId) :
    EditedInv c.code (OfCode s' c.code) s'.lookups.length s' := by
  have hrun' : run (step crypto) s₀ (as ++ [.commit k secretHash]) = some s' :=
    run_append_eq_some_iff.mpr ⟨s, hrun, run_cons_eq_some_iff.mpr ⟨s', hcommit, rfl⟩⟩
  have hinv := inv_of_run h₀ hrun
  have hstored : ∀ jti, OfCode s' c.code jti →
      ∃ row ∈ s'.tokens, row.jti = jti ∧ row.clientId = clientId := by
    intro jti hjti
    rw [← hclient]
    exact exists_token_of_code h₀ hrun' ((effect_of_step hcommit).grows.drawn c hc) hjti
  have hcons := consistent_tokens_of_run h₀ hrun'
  cases effect_of_step hcommit with
  | commitFailed =>
    have hlt := (List.getElem?_eq_some_iff.mp hdone).1
    rw [State.setEdit, List.length_set] at hlt
    cases (List.getElem?_set_self hlt).symm.trans hdone
  | commit _ _ edit clientId' anonAppId clients hcall =>
    have hlt := (List.getElem?_eq_some_iff.mp hcall).1
    cases (List.getElem?_set_self hlt).symm.trans hdone
    refine ⟨?_, List.mem_map_of_mem hc, fun jti hjti => hjti, ?_, Dead.of_tokens ?_⟩
    · -- a row with this code would be of this client, and those are deleted
      intro row hrow hcode
      obtain ⟨hrow, hother⟩ := mem_deleteMany.mp hrow
      obtain ⟨c', hc', hsame⟩ := hinv.known.2 row hrow
      have hkey : c'.code = c.code := by
        rw [← hcode, hsame]
      obtain rfl : c' = c := List.inj_on_of_nodup_map hinv.known.1 hc' hc hkey
      rw [hsame] at hother
      exact of_decide_eq_false hother hclient
    · intro jti hold
      obtain ⟨row, hrow, hjti, -⟩ := hstored jti hold
      exact ⟨row, hrow, hjti⟩
    · -- a token of this code is of this client, and those are revoked
      intro t ht hold
      obtain ⟨row, hrow, hjti, hrowClient⟩ := hstored t.jti hold
      have hsame : row = t := by
        refine hcons.eq_of_clash hrow ht ?_
        simpa [clash] using hjti
      subst hsame
      obtain ⟨t₀, ht₀, rfl⟩ := mem_mapWhere.mp ht
      split_ifs at hrowClient ⊢ with hopen
      · exact Option.some_ne_none _
      · intro hnone
        exact hopen (decide_eq_true ⟨hrowClient, hnone⟩)

end Edit

/-- **An edit of a client invalidates old grants**, if tokens are inserted only while their
code is stored: after the edit has committed, a userinfo request that starts later does not
accept a token that was obtained for a code drawn before. -/
theorem no_claims_after_edit {crypto : Crypto} {s₀ s₁ s₂ s : State} {as bs : List Action}
    {k : Nat} {secretHash : String} {clientId : ClientId} {c : AuthorizationCode}
    (h₀ : s₀.Initial) (hrun₁ : run (step crypto) s₀ as = some s₁)
    (hcommit : step crypto s₁ (.commit k secretHash) = some s₂)
    (hdone : s₂.edits[k]? = some (.committed clientId)) (hc : c ∈ s₁.drawn)
    (hclient : c.clientId = clientId) (hok : Along (step crypto) MintsWithCode s₂ bs)
    (hrun₂ : run (step crypto) s₂ bs = some s) :
    ∀ j row i r client stored t, s₂.lookups.length ≤ j → s.lookups[j]? = some (.answered row) →
      s.Issued i r client stored t → r.code = c.code → row.jti ≠ t.jti := by
  have hinv : EditedInv c.code (OfCode s₂ c.code) s₂.lookups.length s := by
    refine run_invariant (EditedInv c.code (OfCode s₂ c.code) s₂.lookups.length) ?_
      (editedInv_of_commit h₀ hrun₁ hcommit hdone hc hclient) hok hrun₂
    intro s a s' hs hcond hstep
    exact hs.step (effect_of_step hstep) hcond
  intro j row i r client stored t hj hrow hissued hcode hjti
  have hold := hinv.issued t.jti ⟨i, r, client, stored, t, hissued, hcode, rfl⟩
  have hnot : ¬OfCode s₂ c.code row.jti := hinv.dead.lookups j _ hrow hj
  exact hnot (hjti ▸ hold)

section EditRuns

/-- An edit of the client up to its transaction. -/
def redirectEdit : List Action :=
  [.edit (.update "cforum0001" "Forum" ["https://forum.example/new"] ["openid"] none), .examine 0]

/-- The token is inserted right after the edit that dropped its code, and is accepted. -/
theorem edited_accepted : ∃ s₁ s₂ s row r client stored t,
    run (step plainCrypto) openState (redemption.dropLast ++ redirectEdit) = some s₁ ∧
    step plainCrypto s₁ (.commit 0 "") = some s₂ ∧
    s₂.edits[0]? = some (.committed "forum") ∧ openCode ∈ s₁.drawn ∧
    openCode.clientId = "forum" ∧
    run (step plainCrypto) s₂ (.mint 0 "jti" :: userinfoRequest) = some s ∧
    s₂.lookups.length ≤ 0 ∧ s.lookups[0]? = some (.answered row) ∧
    s.Issued 0 r client stored t ∧ r.code = openCode.code ∧ row.jti = t.jti :=
  ⟨_, _, _, _, _, _, _, _, rfl, rfl, rfl, List.mem_singleton.mpr rfl, rfl, rfl, Nat.le_refl 0,
    rfl, rfl, rfl, rfl⟩

/-- A token that was inserted before the edit is refused. -/
theorem edited_refused : ∃ s₁ s₂ s,
    run (step plainCrypto) openState (redemption ++ redirectEdit) = some s₁ ∧
    step plainCrypto s₁ (.commit 0 "") = some s₂ ∧
    s₂.edits[0]? = some (.committed "forum") ∧ openCode ∈ s₁.drawn ∧
    run (step plainCrypto) s₂ userinfoRequest = some s ∧
    s.lookups[0]? = some (.unauthorized "Token has been revoked") ∧
    ∀ j row i r client stored t, s₂.lookups.length ≤ j → s.lookups[j]? = some (.answered row) →
      s.Issued i r client stored t → r.code = openCode.code → row.jti ≠ t.jti := by
  obtain ⟨s₁, s₂, s, hrun₁, hcommit, hdone, hdrawn, hrun₂, hrefused⟩ : ∃ s₁ s₂ s,
      run (step plainCrypto) openState (redemption ++ redirectEdit) = some s₁ ∧
      step plainCrypto s₁ (.commit 0 "") = some s₂ ∧
      s₂.edits[0]? = some (.committed "forum") ∧ openCode ∈ s₁.drawn ∧
      run (step plainCrypto) s₂ userinfoRequest = some s ∧
      s.lookups[0]? = some (.unauthorized "Token has been revoked") :=
    ⟨_, _, _, rfl, rfl, rfl, List.mem_singleton.mpr rfl, rfl, rfl⟩
  have hinitial : openState.Initial := ⟨rfl, rfl, rfl, rfl, by decide, by decide⟩
  refine ⟨s₁, s₂, s, hrun₁, hcommit, hdone, hdrawn, hrun₂, hrefused, ?_⟩
  refine no_claims_after_edit hinitial hrun₁ hcommit hdone hdrawn rfl (along_of_forall_mem ?_) hrun₂
  rintro a ha s i jti r client stored user rfl
  simp [userinfoRequest] at ha

end EditRuns

end Minister.Oidc

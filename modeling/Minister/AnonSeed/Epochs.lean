import Minister.AnonSeed.Vault
import Minister.Transition.Pool

/-!
# Roots and epochs

Whenever a vault derives a secret at an epoch, the root should be the one that was generated for
this epoch, so that a root from before a reset or a re-key is never used after it. The label of
a root travels with it through the store and through the relay, where it is authenticated. On
two ways into a vault it does not: a key that is typed in gets the epoch that the page asks for,
and a copy for a passkey is wrapped at the epoch of the server, whatever the epoch of the vault.
A device that has missed a re-key can so bring the old root to the new epoch.
-/

namespace Minister.AnonSeed

open Relational Transition

/-! ### The property -/

/-- The secrets that the vaults derive. Of the roots, `g` is the only one for the user and the
epoch, and it is for no other epoch and no other user. -/
def Paired (env : Env) (s : State) : Prop :=
  ∀ p ∈ s.pages, ∀ anonAppId userId epoch secret,
    p.vault.deriveAppSecret env anonAppId userId epoch = .ok secret →
    ∃ g ∈ s.generated, g.userId = userId ∧ g.epoch = epoch ∧ p.vault.seed = some g.root ∧
      secret = appSecret env g.root anonAppId epoch ∧
      ∀ g' ∈ s.generated, g'.userId = userId ∧ g'.epoch = epoch ∨ g'.root = g.root → g' = g

/-- The label that a typed key would get. -/
def typedLabel (env : Env) : Action → Option Generated
  | .unlockWithSeedInput _ userId _ input epoch =>
    (decodeStringToSeed env input).toOption.map fun root => ⟨userId, epoch, root⟩
  | _ => none

/-- The epoch of the vault that a copy is made from, and the one that it is wrapped at. -/
def State.wrapEpochs (s : State) : Action → Option (Nat × Nat)
  | .enrollPasskeyBlob page userId _ _ =>
    s.pages[page]?.map fun p => (p.vault.vaultEpoch, s.server.epochOf userId)
  | _ => none

/-- A typed key is the root that was generated for the user and the epoch asked for, and a copy
is made from a vault at the epoch of the server. -/
def Truthful (env : Env) (s : State) (a : Action) : Prop :=
  (∀ g ∈ typedLabel env a, g ∈ s.generated) ∧ ∀ e ∈ s.wrapEpochs a, e.1 = e.2

instance (env : Env) (s : State) (a : Action) : Decidable (Truthful env s a) :=
  inferInstanceAs (Decidable (_ ∧ _))

/-! ### The invariant -/

/-- A copy that was wrapped with the right label. -/
def SoundBlob (env : Env) (generated : List Generated) (blob : WrappedSeed) : Prop :=
  ∃ seed prfOutput aad, wrapSeed env seed prfOutput aad = .ok blob ∧
    ⟨aad.userId, aad.enrollmentEpoch, seed⟩ ∈ generated

/-- A relay body that was sealed with the right label. -/
def SoundBody (generated : List Generated) (body : RelayBody) : Prop :=
  ∃ recipientPublicKey root userId sessionId epoch,
    sealRoot recipientPublicKey root userId sessionId epoch = .ok body ∧
      ⟨userId, epoch, root⟩ ∈ generated

structure Inv (env : Env) (s : State) : Prop where
  reached : ∀ g ∈ s.generated, s.server.Reached g.userId g.epoch
  oncePerEpoch : ∀ g ∈ s.generated, ∀ g' ∈ s.generated,
    g'.userId = g.userId → g'.epoch = g.epoch → g' = g
  oncePerRoot : ∀ g ∈ s.generated, ∀ g' ∈ s.generated, g'.root = g.root → g' = g
  vaults : ∀ p ∈ s.pages, p.vault.Labelled s.generated
  store : ∀ r ∈ s.store, ⟨r.userId, r.epoch, r.root⟩ ∈ s.generated
  blobs : ∀ b ∈ s.server.blob, SoundBlob env s.generated b.ciphertext
  bodies : ∀ body ∈ s.relayed, SoundBody s.generated body

section Inv

variable {env : Env} {s s' : State} {a : Action} {page : Nat} {userId : UserId}
  {storage : Storage} {server : Server} {limited : Option Nat} {assertion : PrfAssertOutcome}
  {body : RelayBody} {now : Timestamp} {sessionId : String} {v : Vault} {needsRestart : Bool}
  {epoch : Nat}

theorem inv_init (hblob : server.blob = []) : Inv env { server } where
  reached := by simp
  oncePerEpoch := by simp
  oncePerRoot := by simp
  vaults := by simp
  store := by simp
  blobs := by simp [hblob]
  bodies := by simp

/-- The server has gone on without a new copy. -/
theorem Inv.later (h : Inv env s) (hlater : s.server.Later server) : Inv env { s with server } :=
  { h with
    reached := fun g hg => hlater.reached _ _ (h.reached g hg)
    blobs := fun b hb => h.blobs b (hlater.blob b hb) }

/-- A page loads what is labelled right. -/
theorem Inv.onPage {ε : Type} {f : Browser → Device → Except ε Device} (h : Inv env s)
    (hf : ∀ b d d', d.Labelled s.generated → f b d = .ok d' → d'.Labelled s.generated)
    (hstep : s.onPage page storage f = some s') : Inv env s' := by
  obtain ⟨p, hp, rfl⟩ := Option.map_eq_some_iff.mp hstep
  split
  · exact h
  · rename_i d hd
    have hvault := h.vaults p (List.mem_of_getElem? hp)
    have hlabelled := hf _ _ d ⟨hvault, h.store⟩ hd
    refine { h with vaults := ?_, store := hlabelled.store }
    intro q hq
    rcases List.mem_or_eq_of_mem_set hq with hq | rfl
    · exact h.vaults q hq
    · exact hlabelled.vault

theorem SoundBlob.mono {generated more : List Generated} {blob : WrappedSeed}
    (h : SoundBlob env generated blob) : SoundBlob env (generated ++ more) blob := by
  obtain ⟨seed, prfOutput, aad, hwrap, hmem⟩ := h
  exact ⟨seed, prfOutput, aad, hwrap, List.mem_append_left _ hmem⟩

theorem SoundBody.mono {generated more : List Generated} (h : SoundBody generated body) :
    SoundBody (generated ++ more) body := by
  obtain ⟨key, root, userId, sessionId, epoch, hseal, hmem⟩ := h
  exact ⟨key, root, userId, sessionId, epoch, hseal, List.mem_append_left _ hmem⟩

/-- A new root for an epoch that has none. -/
theorem Inv.generated (h : Inv env s) {g : Generated} (hreached : s.server.Reached g.userId g.epoch)
    (hepoch : ∀ g' ∈ s.generated, ¬(g'.userId = g.userId ∧ g'.epoch = g.epoch))
    (hroot : ∀ g' ∈ s.generated, g'.root ≠ g.root) :
    Inv env { s with generated := s.generated ++ [g] } where
  reached := forall_mem_concat h.reached hreached
  oncePerEpoch := by
    intro g₁ h₁ g₂ h₂ huser hsame
    rcases List.mem_append.mp h₁ with hold₁ | hnew₁ <;>
      rcases List.mem_append.mp h₂ with hold₂ | hnew₂
    · exact h.oncePerEpoch g₁ hold₁ g₂ hold₂ huser hsame
    · obtain rfl := List.mem_singleton.mp hnew₂
      exact absurd ⟨huser.symm, hsame.symm⟩ (hepoch g₁ hold₁)
    · obtain rfl := List.mem_singleton.mp hnew₁
      exact absurd ⟨huser, hsame⟩ (hepoch g₂ hold₂)
    · rw [List.mem_singleton.mp hnew₁, List.mem_singleton.mp hnew₂]
  oncePerRoot := by
    intro g₁ h₁ g₂ h₂ hsame
    rcases List.mem_append.mp h₁ with hold₁ | hnew₁ <;>
      rcases List.mem_append.mp h₂ with hold₂ | hnew₂
    · exact h.oncePerRoot g₁ hold₁ g₂ hold₂ hsame
    · obtain rfl := List.mem_singleton.mp hnew₂
      exact absurd hsame.symm (hroot g₁ hold₁)
    · obtain rfl := List.mem_singleton.mp hnew₁
      exact absurd hsame (hroot g₂ hold₂)
    · rw [List.mem_singleton.mp hnew₁, List.mem_singleton.mp hnew₂]
  vaults := by
    intro p hp root hseed
    obtain ⟨userId, huser, hmem⟩ := h.vaults p hp root hseed
    exact ⟨userId, huser, List.mem_append_left _ hmem⟩
  store := fun r hr => List.mem_append_left _ (h.store r hr)
  blobs := fun b hb => (h.blobs b hb).mono
  bodies := fun body hbody => (h.bodies body hbody).mono

theorem later_committed {α : Type} {s : Server} {result : Except Refusal (α × Server)}
    (h : ∀ x s', result = .ok (x, s') → s.Later s') : s.Later (committed s result) := by
  cases result with
  | error refusal => exact .refl s
  | ok out => exact h out.1 out.2 rfl

/-! ### Each operation -/

theorem later_restarted {s : Server} : s.Later (restarted env needsRestart limited userId s) := by
  unfold restarted
  split
  · exact later_committed fun _ _ h => later_reset h
  · exact .refl s

theorem Inv.generate {limitedReset limitedBegin : Option Nat} {root : Bytes} (h : Inv env s)
    (hroot : ∀ g ∈ s.generated, g.root ≠ root)
    (hstep : s.generate env page userId needsRestart limitedReset limitedBegin now root = some s') :
    Inv env s' := by
  have hlater : s.server.Later (restarted env needsRestart limitedReset userId s.server) :=
    later_restarted
  have hrestarted := h.later hlater
  unfold State.generate at hstep
  dsimp only at hstep
  split at hstep
  · cases hstep
    exact hrestarted
  · rename_i state server' hbegin
    obtain ⟨hfresh, hepoch, rfl⟩ := begin_eq_ok hbegin
    have hbegun := hrestarted.later (later_begin hbegin)
    -- no root of the list is for the epoch that begins
    have hnew := hbegun.generated (g := ⟨userId, state.enrollmentEpoch, root⟩)
      (hepoch ▸ reached_stampGenerated)
      (fun g' hg' hsame => hfresh (by
        have := hrestarted.reached g' hg'
        rwa [hsame.1, hsame.2, hepoch] at this))
      hroot
    refine hnew.onPage (fun b d d' hd hload => hd.unlockVault ?_ hload) hstep
    simp

theorem Inv.confirm (h : Inv env s)
    (hstep : s.confirm env page userId storage limited now = some s') : Inv env s' := by
  unfold State.confirm at hstep
  split at hstep
  · cases hstep
    exact h
  · rename_i hconfirm
    apply (h.later (later_confirm hconfirm)).onPage _ hstep
    intro b d d' hd hmark
    cases hmark
    exact hd.markVaultActive

theorem Inv.reset {confirmPhrase : Option String} (h : Inv env s)
    (hstep : s.reset env page userId limited confirmPhrase = some s') : Inv env s' := by
  unfold State.reset at hstep
  split at hstep
  · cases hstep
    exact h
  · rename_i hreset
    apply (h.later (later_reset hreset)).onPage _ hstep
    intro b d d' hd hlock
    cases hlock
    exact hd.lockVault

/-- A copy that is made leaves the enrollments alone, and the server as it is or with a copy of
the root of the vault at its own epoch. -/
theorem enrollPasskeyBlob_eq_some {s s' : Server} {result : Except PasskeyRefusal String}
    (h : enrollPasskeyBlob env limited userId assertion v s = some (result, s')) :
    s' = s ∨ ∃ seed credentialId prfOutput blob,
      v.holds userId = some seed ∧
      wrapSeed env seed prfOutput ⟨userId, credentialId, 1, s.epochOf userId⟩ = .ok blob ∧
      putSeedBlob env limited userId ⟨credentialId, blob, 1⟩ s = .ok s' := by
  have same {refusal : PasskeyRefusal}
      (heq : some (Except.error (α := String) refusal, s) = some (result, s')) : s' = s :=
    ((Prod.mk.inj (Option.some.inj heq)).2).symm
  unfold enrollPasskeyBlob at h
  split at h
  · exact .inl (same h)
  · exact .inl (same h)
  · rename_i seed state hholds hstate
    obtain ⟨_, -, hstate⟩ := bind_eq_ok_iff.mp hstate
    cases hstate
    split at h
    · exact .inl (same h)
    · split at h
      · exact .inl (same h)
      · exact .inl (same h)
      · exact .inl (same h)
      · exact .inl (same h)
      · split at h
        · cases h
        · rename_i wrapped hwrap
          split at h
          · exact .inl (same h)
          · rename_i stored hput
            obtain ⟨-, rfl⟩ := Prod.mk.inj (Option.some.inj h)
            exact .inr ⟨seed, _, _, wrapped, hholds, hwrap, hput⟩

theorem Inv.enrollPasskeyBlob (h : Inv env s)
    (hok : ∀ e ∈ s.wrapEpochs (.enrollPasskeyBlob page userId limited assertion), e.1 = e.2)
    (hstep : s.enrollPasskeyBlob env page userId limited assertion = some s') : Inv env s' := by
  obtain ⟨p, hp, rfl⟩ := Option.map_eq_some_iff.mp hstep
  split
  · exact h
  · rename_i server' hwrap
    rcases enrollPasskeyBlob_eq_some hwrap with rfl | hcopied
    · exact h
    · obtain ⟨seed, credentialId, prf, blob, hholds, hwrapped, hput⟩ := hcopied
      obtain ⟨henrollment, hblob⟩ := putSeedBlob_eq_ok hput
      have hepoch : p.vault.vaultEpoch = s.server.epochOf userId :=
        hok (p.vault.vaultEpoch, s.server.epochOf userId) (by simp [State.wrapEpochs, hp])
      refine { h with reached := ?_, blobs := ?_ }
      · intro g hg
        have hreached := h.reached g hg
        unfold Server.Reached Server.findEnrollment at hreached ⊢
        rwa [henrollment]
      · intro b hb
        rcases hblob b hb with hb | heq
        · exact h.blobs b hb
        · -- the vault holds the root of the epoch that the copy is wrapped at
          have hmem := (h.vaults p (List.mem_of_getElem? hp)).mem hholds
          rw [hepoch] at hmem
          rw [heq]
          exact ⟨seed, prf, _, hwrapped, hmem⟩

theorem Inv.unlockWithPasskey (h : Inv env s)
    (hstep : (s.onPage page storage fun b =>
      unlockWithPasskey env b userId assertion s.server) = some s') : Inv env s' := by
  apply h.onPage _ hstep
  intro b d d' hd hunlock
  unfold AnonSeed.unlockWithPasskey at hunlock
  split at hunlock
  · cases hunlock
  · cases hunlock
  · cases hunlock
  · cases hunlock
  · rename_i blobs credentialId prfOutput _ hblobs
    split at hunlock
    · cases hunlock
    · rename_i blob hfind
      split at hunlock
      · cases hunlock
      · rename_i loaded hopen
        cases hunlock
        obtain ⟨unwrapped, hunwrap, hload⟩ := bind_eq_ok_iff.mp hopen
        obtain ⟨_, -, hviews⟩ := bind_eq_ok_iff.mp hblobs
        cases hviews
        obtain ⟨row, hrow, rfl⟩ := List.mem_map.mp (List.mem_of_find?_eq_some hfind)
        obtain ⟨seed, prf, aad, hwrap, hmem⟩ := h.blobs row (mem_findMany.mp hrow).1
        -- the copy opens only at the epoch it was wrapped at
        obtain ⟨rfl, rfl⟩ := unwrapSeed_wrapSeed hwrap hunwrap
        exact hd.unlockVault hmem hload

theorem Inv.receiveRootFromPeer {keyPair : CryptoKeyPair} (h : Inv env s)
    (hbody : body ∈ s.relayed)
    (hstep : (s.onPage page storage fun b =>
      receiveRootFromPeer b userId sessionId keyPair body epoch) = some s') : Inv env s' := by
  apply h.onPage _ hstep
  intro b d d' hd hreceive
  obtain ⟨root, hopen, hload⟩ := bind_eq_ok_iff.mp hreceive
  obtain ⟨key, sealed, user, session, sealedEpoch, hseal, hmem⟩ := h.bodies body hbody
  obtain ⟨rfl, -, rfl, rfl⟩ := openRoot_sealRoot hseal hopen
  exact hd.unlockVault hmem hload

theorem Inv.sealRootToPeer {key : Bytes} (h : Inv env s)
    (hstep : s.sealRootToPeer page userId sessionId key = some s') : Inv env s' := by
  obtain ⟨p, hp, rfl⟩ := Option.map_eq_some_iff.mp hstep
  split
  · exact h
  · rename_i body hseal
    refine { h with bodies := ?_ }
    intro body' hbody'
    rcases List.mem_append.mp hbody' with hbody' | hbody'
    · exact h.bodies body' hbody'
    · obtain rfl := List.mem_singleton.mp hbody'
      unfold AnonSeed.sealRootToPeer at hseal
      split at hseal
      · rename_i seed hholds
        split at hseal
        · -- sealed at the epoch of the vault
          have hmem := (h.vaults p (List.mem_of_getElem? hp)).mem hholds
          exact ⟨key, seed, userId, sessionId, _, hseal, hmem⟩
        · cases hseal
      · cases hseal

/-- One step. -/
theorem Inv.step (h : Inv env s) (hok : Truthful env s a) (hstep : step env s a = some s') :
    Inv env s' := by
  cases a with
  | openPage browser =>
    cases hstep
    refine { h with vaults := ?_ }
    exact forall_mem_concat h.vaults Vault.labelled_empty
  | generate page userId needsRestart limitedReset limitedBegin now root =>
    simp only [AnonSeed.step, Option.ite_none_right_eq_some] at hstep
    exact h.generate hstep.1.2 hstep.2
  | confirm page userId storage limited now => exact h.confirm hstep
  | reset page userId limited confirmPhrase => exact h.reset hstep
  | rekey userId limited now session gate confirmPhrase =>
    cases hstep
    exact h.later (later_committed fun _ _ hrekey => later_rekey hrekey)
  | enrollPasskeyBlob page userId limited assertion => exact h.enrollPasskeyBlob hok.2 hstep
  | deleteSeedBlob userId limited credentialId =>
    cases hstep
    apply h.later
    apply later_committed
    intro _ server hdelete
    obtain ⟨deleted, hdeleted, heq⟩ := map_eq_ok_iff.mp hdelete
    obtain rfl := (Prod.mk.inj heq).2
    exact later_deleteSeedBlob hdeleted
  | unlockWithPasskey page userId storage assertion => exact h.unlockWithPasskey hstep
  | unlockFromStore page userId storage =>
    simp only [AnonSeed.step] at hstep
    apply h.onPage _ hstep
    intro b d d' hd hunlock
    obtain ⟨⟨found, loaded⟩, hloaded, rfl⟩ := map_eq_ok_iff.mp hunlock
    exact hd.unlockFromStore hloaded
  | unlockWithSeedInput page userId storage input epoch =>
    simp only [AnonSeed.step] at hstep
    apply h.onPage _ hstep
    intro b d d' hd hunlock
    obtain ⟨root, hdecode, hload⟩ := bind_eq_ok_iff.mp hunlock
    -- the typed key is what its label says
    have hmem := hok.1 ⟨userId, epoch, root⟩ (by simp [typedLabel, hdecode, Except.toOption])
    exact hd.unlockVault hmem hload
  | sealRootToPeer page userId sessionId key => exact h.sealRootToPeer hstep
  | receiveRootFromPeer page userId storage sessionId keyPair relayed epoch =>
    obtain ⟨body, hbody, hstep⟩ := Option.bind_eq_some_iff.mp hstep
    exact h.receiveRootFromPeer (List.mem_of_getElem? hbody) hstep
  | lock page =>
    simp only [AnonSeed.step] at hstep
    apply h.onPage _ hstep
    intro b d d' hd hlock
    cases hlock
    exact hd.lockVault
  | purge page userId storage =>
    simp only [AnonSeed.step] at hstep
    apply h.onPage _ hstep
    intro b d d' hd hpurge
    cases hpurge
    exact hd.purgeVault

/-- A vault that derives holds the root of the user, at the epoch asked for. -/
theorem deriveAppSecret_eq_ok {anonAppId : String} {secret : Bytes}
    (h : v.deriveAppSecret env anonAppId userId epoch = .ok secret) :
    ∃ root, v.holds userId = some root ∧ v.seed = some root ∧ v.vaultEpoch = epoch ∧
      secret = appSecret env root anonAppId epoch := by
  unfold Vault.deriveAppSecret at h
  split at h
  · cases h
  · rename_i root hholds
    obtain ⟨_, -, h⟩ := bind_eq_ok_iff.mp h
    obtain ⟨_, hepoch, h⟩ := bind_eq_ok_iff.mp h
    rw [check_eq_ok_iff, decide_eq_true_eq] at hepoch
    refine ⟨root, hholds, ?_, hepoch.symm, (deriveAppSecret_eq h).2⟩
    unfold Vault.holds at hholds
    split at hholds
    · exact hholds
    · cases hholds

theorem Inv.paired (h : Inv env s) : Paired env s := by
  intro p hp anonAppId userId epoch secret hderive
  obtain ⟨root, hholds, hseed, rfl, hsecret⟩ := deriveAppSecret_eq_ok hderive
  have hmem := (h.vaults p hp).mem hholds
  refine ⟨_, hmem, rfl, rfl, hseed, hsecret, ?_⟩
  rintro g' hg' (⟨huser, hepoch⟩ | hroot)
  · exact h.oncePerEpoch _ hmem g' hg' huser hepoch
  · exact h.oncePerRoot _ hmem g' hg' hroot

end Inv

/-- **Roots and epochs stay paired.** Whatever enrollments, resets, re-keys, copies, unlocks and
transfers follow one another on any number of pages and browsers: as long as typed keys are those
of the epoch asked for and copies are made at the epoch of the server, every secret that a vault
derives is that of the root generated for its epoch. -/
theorem paired_of_run {env : Env} {server : Server} {s : State} {as : List Action}
    (hblob : server.blob = []) (htruthful : Along (step env) (Truthful env) { server } as)
    (hrun : run (step env) { server } as = some s) : Paired env s := by
  have hinv : Inv env s :=
    run_invariant (Inv env) (fun _ _ _ h hok hstep => h.step hok hstep)
      (inv_init hblob) htruthful hrun
  exact hinv.paired

section Stale

/-- HKDF is the material with its info, and a key as text stands for its length, sixteen
times. -/
def plainEnv : Env where
  hkdfSha256 := fun ikm _ info _ => ikm ++ Codec.utf8 info
  base58checkDecode := fun text =>
    some (seedVersionByte :: List.replicate 16 (UInt8.ofNat text.length))
  toLowerCase := id
  anonIdentityEnabled := true

def root (n : Nat) : Bytes := List.replicate 16 (UInt8.ofNat n)

def ann : UserId := "cann000001"

/-- A session that has just signed in with a passkey. -/
def freshSession : Recovery.Session := ⟨some 2, false, some (.finite 0)⟩

/-- An account with a passkey. -/
def annServer : Server where
  authenticator := [⟨"phone", ann⟩]

/-- A root is generated and confirmed on a page. -/
def enroll (page n : Nat) : List Action :=
  [.generate page ann false none none 0 (root n), .confirm page ann .works none 0]

def rekeyAnn : Action := .rekey ann none 0 freshSession none (some "re-key my identity")

/-- Enrolled on the phone, and re-keyed on the laptop while the phone keeps its page open. -/
def missedRekey : List Action :=
  [.openPage 0, .openPage 1] ++ enroll 0 1 ++ [rekeyAnn] ++ enroll 1 2

/-- The passkey of the account, with its output. -/
def assertion : PrfAssertOutcome := .ok "phone" (List.replicate 32 7)

/-- The laptop stores a copy, which the phone then unlocks. -/
def laptopCopies : List Action :=
  missedRekey ++
    [.enrollPasskeyBlob 1 ann none assertion, .unlockWithPasskey 0 ann .works assertion]

/-- The phone, which has missed the re-key, stores the copy. -/
def phoneCopies : List Action :=
  missedRekey ++
    [.enrollPasskeyBlob 0 ann none assertion, .unlockWithPasskey 1 ann .works assertion]

/-- The key from before the re-key is typed in. -/
def typesOldKey : List Action :=
  missedRekey ++ [.unlockWithSeedInput 1 ann .works "k" 2]

/-- What the vault of a page derives for an app after a run. -/
def derived (as : List Action) (page epoch : Nat) : Option Bytes := do
  let s ← run (step plainEnv) { server := annServer } as
  let p ← s.pages[page]?
  (p.vault.deriveAppSecret plainEnv "freedink" ann epoch).toOption

/-- Before it has the new root the phone derives nothing at the new epoch; with the copy of the
laptop it derives the secret of the new root. -/
theorem laptopCopies_paired :
    derived missedRekey 0 2 = none ∧
      derived laptopCopies 0 2 = some (appSecret plainEnv (root 2) "freedink" 2) ∧
      ∀ s, run (step plainEnv) { server := annServer } laptopCopies = some s →
        Paired plainEnv s := by
  exact ⟨by decide +kernel, by decide +kernel, fun s hrun =>
    paired_of_run rfl (by decide +kernel) hrun⟩

/-- Some vault derives at the epoch from a root that was not generated for it. -/
def Stale (env : Env) (anonAppId : String) (userId : UserId) (epoch : Nat) (s : State) : Prop :=
  ∃ p ∈ s.pages, (p.vault.deriveAppSecret env anonAppId userId epoch).toOption.isSome ∧
    ∀ g ∈ s.generated, g.userId = userId → g.epoch = epoch → p.vault.seed ≠ some g.root

instance (env : Env) (anonAppId : String) (userId : UserId) (epoch : Nat) (s : State) :
    Decidable (Stale env anonAppId userId epoch s) :=
  inferInstanceAs (Decidable (∃ p ∈ s.pages, _ ∧ ∀ g ∈ s.generated, _))

theorem Stale.not_paired {env : Env} {anonAppId : String} {userId : UserId} {epoch : Nat}
    {s : State} (h : Stale env anonAppId userId epoch s) : ¬Paired env s := by
  obtain ⟨p, hp, hderives, hother⟩ := h
  intro hpaired
  cases hsecret : p.vault.deriveAppSecret env anonAppId userId epoch with
  | error e => simp [hsecret, Except.toOption] at hderives
  | ok secret =>
    obtain ⟨g, hg, huser, hepoch, hseed, -⟩ := hpaired p hp anonAppId userId epoch secret hsecret
    exact hother g hg huser hepoch hseed

/-- The root of the first epoch derives at the second one: from the copy that the phone has
stored, and from the old key. -/
theorem staleRoot_derives :
    derived phoneCopies 1 2 = some (appSecret plainEnv (root 1) "freedink" 2) ∧
      derived typesOldKey 1 2 = some (appSecret plainEnv (root 1) "freedink" 2) ∧
      ∀ as ∈ [phoneCopies, typesOldKey], ∃ s,
        run (step plainEnv) { server := annServer } as = some s ∧ ¬Paired plainEnv s := by
  refine ⟨by decide +kernel, by decide +kernel, fun as has => ?_⟩
  have hstale : ∀ as ∈ [phoneCopies, typesOldKey],
      (run (step plainEnv) { server := annServer } as).any
        (fun s => Stale plainEnv "freedink" ann 2 s) = true := by
    decide +kernel
  obtain ⟨s, hrun, hs⟩ := (Option.any_eq_true _ _).mp (hstale as has)
  exact ⟨s, hrun, (of_decide_eq_true hs).not_paired⟩

end Stale

end Minister.AnonSeed

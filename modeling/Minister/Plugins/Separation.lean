import Minister.Plugins.Accounts

/-!
# Accounts of different providers

The ledger knows a credential by its anchor and its badge type. All account plugins
issue the same badge types, and no part of the ledger's value says which provider an
anchor is from. So two accounts are told apart exactly if their anchors are different
strings, and this is certain only within one provider.
-/

namespace Minister.Plugins

open Codec Issuance Relational

/-- No badge of the first list has the ledger entry of a badge of the second, and
registering the first does not change how the registration of the second ends. -/
structure Apart (env : MacEnv) (bs bs' : List IssuedBadge) : Prop where
  value_ne : ∀ b ∈ bs, ∀ b' ∈ bs', ∀ anchor anchor' value value',
    b.sybilAnchor = some anchor → b'.sybilAnchor = some anchor' →
    deriveDedupValue env anchor b.type = .ok value →
    deriveDedupValue env anchor' b'.type = .ok value' → value ≠ value'
  result_eq : ∀ b ∈ bs, ∀ b' ∈ bs', ∀ anchor anchor' handle handle' freshId freshId' t t₁ t₂ r r',
    b.sybilAnchor = some anchor → b'.sybilAnchor = some anchor' → freshId ≠ freshId' →
    register env anchor b.type handle freshId t = .ok (t₁, r) →
    register env anchor' b'.type handle' freshId' t = .ok (t₂, r') →
    ∃ t₃, register env anchor' b'.type handle' freshId' t₁ = .ok (t₃, r')

section Separation

variable {env : MacEnv} {rt : Runtime} {now now' : Timestamp} {a a' : Account}

/-- One registration leaves another alone if their values differ. -/
theorem register_after
    {anchor anchor' badgeType badgeType' handle handle' freshId freshId' : String}
    {t t₁ t₂ : List NullifierEntry} {r r' : RegisterDedupResult}
    (hvalue : ∀ value value', deriveDedupValue env anchor badgeType = .ok value →
      deriveDedupValue env anchor' badgeType' = .ok value' → value ≠ value')
    (hid : freshId ≠ freshId')
    (h : register env anchor badgeType handle freshId t = .ok (t₁, r))
    (h' : register env anchor' badgeType' handle' freshId' t = .ok (t₂, r')) :
    ∃ t₃, register env anchor' badgeType' handle' freshId' t₁ = .ok (t₃, r') := by
  obtain ⟨value, hv, ⟨-, rfl, hcons⟩ | ⟨rfl, -⟩⟩ := register_cases h
  · obtain ⟨value', hv', hreg⟩ := bind_eq_ok_iff.mp h'
    obtain ⟨t₃, hreg'⟩ := registerDedup_append hcons hid (hvalue value value' hv hv') hreg
    exact ⟨t₃, bind_eq_ok_iff.mpr ⟨value', hv', hreg'⟩⟩
  · exact ⟨t₂, h'⟩

theorem Apart.of_value_ne {bs bs' : List IssuedBadge}
    (h : ∀ b ∈ bs, ∀ b' ∈ bs', ∀ anchor anchor' value value',
      b.sybilAnchor = some anchor → b'.sybilAnchor = some anchor' →
      deriveDedupValue env anchor b.type = .ok value →
      deriveDedupValue env anchor' b'.type = .ok value' → value ≠ value') : Apart env bs bs' where
  value_ne := h
  result_eq := by
    intro b hb b' hb' anchor anchor' handle handle' freshId freshId' t t₁ t₂ r r' ha ha' hid h₁ h₂
    exact register_after (fun v v' => h b hb b' hb' anchor anchor' v v' ha ha') hid h₁ h₂

/-- Accounts with different anchors are told apart. -/
theorem apart_of_anchor_ne (hmac : ∀ key, Function.Injective (env.hmac key))
    (hne : a.anchor ≠ a'.anchor) : Apart env (a.badges rt now) (a'.badges rt now') := by
  apply Apart.of_value_ne
  intro b hb b' hb' anchor anchor' value value' ha ha' hv hv' heq
  obtain rfl := Option.some.inj ((sybilAnchor_of_mem_badges hb).symm.trans ha)
  obtain rfl := Option.some.inj ((sybilAnchor_of_mem_badges hb').symm.trans ha')
  subst heq
  exact hne (deriveDedupValue_inj hmac hv hv').1

/-- An anchor that is too long is never registered. -/
theorem apart_of_anchor_long (hlong : maxAnchorBytes < (utf8 a.anchor).length) :
    Apart env (a.badges rt now) (a'.badges rt now') := by
  apply Apart.of_value_ne
  intro b hb b' hb' anchor anchor' value value' ha ha' hv
  obtain rfl := Option.some.inj ((sybilAnchor_of_mem_badges hb).symm.trans ha)
  exact absurd (deriveDedupValue_eq_ok_iff.mp hv).1.1 (Nat.not_le.mpr hlong)

/-- Accounts with the same anchor have the same `oauth-account` entry. -/
theorem not_apart_of_anchor_eq {key : List UInt8} (hkey : interimKey env = .ok key)
    (heq : a.anchor = a'.anchor) (hshort : (utf8 a.anchor).length ≤ maxAnchorBytes) :
    ¬ Apart env (a.badges rt now) (a'.badges rt now') := by
  intro hapart
  obtain ⟨b, hb, htype⟩ := exists_oauthAccount rt now a
  obtain ⟨b', hb', htype'⟩ := exists_oauthAccount rt now' a'
  have hvalue : deriveDedupValue env a.anchor "oauth-account" =
      .ok (env.hmac key ((NullifierMessage.dedup a.anchor "oauth-account").bytes)) :=
    deriveDedupValue_eq_ok_iff.mpr ⟨⟨hshort, by decide⟩, key, hkey, rfl⟩
  refine hapart.value_ne b hb b' hb' _ _ _ _ (sybilAnchor_of_mem_badges hb)
    (sybilAnchor_of_mem_badges hb') (by rw [htype, hvalue]) ?_ rfl
  rw [htype', ← heq, hvalue]

/-- Two accounts are told apart exactly if they are of one provider or have different
anchors, or if they have one that is too long to be registered. -/
theorem apart_badges_iff (hmac : ∀ key, Function.Injective (env.hmac key)) {key : List UInt8}
    (hkey : interimKey env = .ok key)
    (hne : (a.provider, a.accountId) ≠ (a'.provider, a'.accountId)) :
    Apart env (a.badges rt now) (a'.badges rt now') ↔
      a.provider = a'.provider ∨ a.anchor ≠ a'.anchor ∨
        maxAnchorBytes < (utf8 a.anchor).length := by
  constructor
  · intro hapart
    by_contra! hcond
    obtain ⟨-, heq, hshort⟩ := hcond
    exact not_apart_of_anchor_eq hkey heq hshort hapart
  · rintro (hp | hanchor | hlong)
    · -- Within one provider, other ids are written as other anchors.
      refine apart_of_anchor_ne hmac fun heq => hne ?_
      rw [hp, accountId_eq_of_anchor_eq hp heq]
    · exact apart_of_anchor_ne hmac hanchor
    · exact apart_of_anchor_long hlong

end Separation

/-! ### A GitHub account and a Hacker News account -/

def sampleMac : MacEnv where
  pairwiseSecret := some "secret"
  hkdf := fun _ _ => []
  hmac := fun _ message => message

def utc : Zone := ⟨fun _ => 0, fun _ => by decide⟩

def sampleRuntime : Runtime := ⟨fun _ => none, utc⟩

/-- Someone's GitHub account number 12345678. -/
def octocat : Account :=
  .github { id := 12345678, login := "octocat", id_double := by decide +kernel }

theorem anchor_octocat : octocat.anchor = "12345678" := by decide +kernel

/-- Somebody else's Hacker News account, whose name is that number. -/
def digits : Account := .hackernews { id := "12345678" }

def pg : Account := .hackernews { id := "pg" }

theorem octocat_pg_apart :
    Apart sampleMac (octocat.badges sampleRuntime 0) (pg.badges sampleRuntime 0) := by
  refine (apart_badges_iff (fun _ _ _ h => h) rfl (by decide)).mpr (.inr (.inl ?_))
  rw [anchor_octocat]
  decide

/-- Once the GitHub account is registered by its owner, the ledger says that the Hacker
News account is taken. -/
theorem octocat_digits_taken :
    (octocat.provider, octocat.accountId) ≠ (digits.provider, digits.accountId) ∧
      ¬ Apart sampleMac (octocat.badges sampleRuntime 0)
          (digits.badges sampleRuntime 0) ∧
      ∃ b ∈ octocat.badges sampleRuntime 0, ∃ b' ∈ digits.badges sampleRuntime 0,
        ∃ anchor anchor' t, b.sybilAnchor = some anchor ∧ b'.sybilAnchor = some anchor' ∧
          register sampleMac anchor b.type "hA" "e1" [] = .ok (t, .registered "e1") ∧
          register sampleMac anchor' b'.type "hB" "e2" [] = .ok
            ([⟨"e2", (NullifierMessage.dedup anchor "oauth-account").bytes, "hB", "oauth-account"⟩],
              .registered "e2") ∧
          register sampleMac anchor' b'.type "hB" "e2" t = .ok (t, .taken) := by
  refine ⟨by decide, not_apart_of_anchor_eq rfl anchor_octocat (by rw [anchor_octocat]; decide), _,
    List.mem_cons_self, _, List.mem_cons_self, "12345678", "12345678", _,
    congrArg some anchor_octocat, rfl, rfl, rfl, rfl⟩

end Minister.Plugins

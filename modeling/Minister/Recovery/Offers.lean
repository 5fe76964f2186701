import Minister.Oidc.Consent
import Minister.Recovery.Attempts

/-!
# The domains that a recovery offers

`startBadgeRecovery` offers the domain of every email-domain badge of the account that is not
public. `requestEmailDomainReProof` asks the database for one such badge and compares the address
with its domain alone. So of the domains that were offered those can be used which are, up to case,
that of the badge that comes first.

Both are whole calls here. `toLowerCase` is a parameter, as is what the limiters say. Of the
attributes of a badge there is the domain, where it is a string. The text of the mail and the audit
log are left out.
-/

namespace Minister.Recovery

open Relational
open Oidc (trim)

/-! ### The two actions -/

/-- A badge with the domain of its attributes. -/
structure OfferedBadge extends HeldBadge where
  domain : Option String
  deriving DecidableEq, Repr

structure OfferTables where
  userEmail : List UserEmail := []
  user : List User := []
  badge : List OfferedBadge := []
  config : ConfigDb
  attempts : AttemptDb

structure StartRecoveryResult where
  ok : Bool
  attemptId : Option String := none
  requiredScore : Option Int := none
  provableTypes : Option (List String) := none
  domains : Option (List String) := none
  error : Option String := none
  deriving DecidableEq, Repr

/-- The values that are added to a set, in the order they were first added. -/
def setOf (values : List String) : List String :=
  values.foldl (fun set value => if value ∈ set then set else set ++ [value]) []

/-- What the link of the mail is bound to, and whom it is sent to. -/
structure ReProofLink where
  attemptId : String
  badgeType : String
  domain : String
  nonceBinding : String
  mailTo : String
  deriving DecidableEq, Repr

section Actions

variable (toLowerCase : String → String)

/-- `text.trim().toLowerCase()`. -/
def canonicalText (text : String) : String := toLowerCase (String.ofList (trim text.toList))

/-- The badges that a recovery of the account may use. -/
def offeredBadges (badge : List OfferedBadge) (userId : UserId) : List OfferedBadge :=
  findMany (fun b => b.type ∈ recoveryEligibleTypes)
    (findMany (fun b => b.userId = userId ∧ b.isPublic = false) badge)

def offeredDomains (badges : List OfferedBadge) : List String :=
  setOf ((findMany (fun b => b.type = "email-domain") badges).filterMap (·.domain))

/-- The account of a verified address, unless it is banned or merged into another. -/
def recoverableUser (t : OfferTables) (email : String) : Option UserId := do
  let owned ← t.userEmail.find? fun e => e.email = email
  let user ← t.user.find? fun u => u.id = owned.userId
  if owned.verifiedAt = none ∨ user.isBanned ∨ user.mergedIntoUserId ≠ none then none
  else some owned.userId

/-- `allowed` is the limiter's verdict, and `id` and `nonce` are what the new attempt gets. -/
def startBadgeRecovery (allowed : Bool) (userIdentifier : String) (now : Timestamp)
    (id nonce : String) (t : OfferTables) :
    Except ServerError (StartRecoveryResult × OfferTables) :=
  let email := canonicalText toLowerCase userIdentifier
  if allowed = false then
    .ok ({ ok := false, error := some "Too many recovery attempts. Try again later." }, t)
  else if '@' ∉ email.toList then
    .ok ({ ok := false, error := some "Enter the email address on the account." }, t)
  else
    match recoverableUser t email with
    | none => .ok ({ ok := true, provableTypes := some [], domains := some [] }, t)
    | some userId => do
      let badges := offeredBadges t.badge userId
      let score ← (loadEffectiveThreshold t.config now).mapError .thrown
      let attempts ← stmt (t.attempts.createAttempt (newAttempt id nonce userId score now))
      return (
        { ok := true
          attemptId := some id
          requiredScore := some score
          provableTypes := some (setOf (badges.map (·.type)))
          domains := some (offeredDomains badges) },
        { t with attempts })

/-- What stands before and after the last `@`, if both are something. -/
def splitAddress (address : List Char) : Option (List Char × List Char) :=
  let domain := address.reverse.takeWhile (· ≠ '@')
  let name := (address.reverse.dropWhile (· ≠ '@')).tail
  if name = [] ∨ domain = [] then none else some (name.reverse, domain.reverse)

/-- The badge that `badge.findFirst` returns. -/
def heldBadge (badge : List OfferedBadge) (userId : UserId) : Option OfferedBadge :=
  badge.find? fun b => b.userId = userId ∧ b.type = "email-domain" ∧ b.isPublic = false

def requestEmailDomainReProof (allowed : Bool) (attemptId emailAddress : String) (now : Timestamp)
    (t : OfferTables) : Except String ReProofLink :=
  if allowed = false then .error "Too many verification emails. Try again later."
  else
    let address := canonicalText toLowerCase emailAddress
    match splitAddress address.toList with
    | none => .error "Enter a valid email address."
    | some (_, domain) =>
      match t.attempts.find attemptId with
      | none => .error "This recovery attempt is no longer active. Start over."
      | some attempt =>
        if attempt.status ≠ "pending" ∨ attempt.expiresAt ≤ now then
          .error "This recovery attempt is no longer active. Start over."
        else
          match (heldBadge t.badge attempt.userId).bind (·.domain) with
          | none => .error "That address can't be used to recover this account."
          | some heldDomain =>
            if heldDomain = "" ∨ (toLowerCase heldDomain).toList ≠ domain then
              .error "That address can't be used to recover this account."
            else .ok ⟨attemptId, "email-domain", heldDomain, attempt.nonce, address⟩

/-! ### The property -/

/-- The text names an address at the domain. -/
def AddressAt (text domain : String) : Prop :=
  ∃ name, name ≠ [] ∧ (toLowerCase domain).toList ≠ [] ∧ '@' ∉ (toLowerCase domain).toList ∧
    (canonicalText toLowerCase text).toList = name ++ '@' :: (toLowerCase domain).toList

/-- The first email-domain badge of the account is one for the domain. -/
def HeldFirst (badge : List OfferedBadge) (userId : UserId) (domain : String) : Prop :=
  ∃ held, (heldBadge badge userId).bind (·.domain) = some held ∧ held ≠ "" ∧
    toLowerCase held = toLowerCase domain

end Actions

/-! ### What the actions compute -/

section Facts

variable {toLowerCase : String → String} {t t' : OfferTables} {now : Timestamp}
  {result : StartRecoveryResult}

theorem mem_setOf {values : List String} {value : String} :
    value ∈ setOf values ↔ value ∈ values := by
  have hfold (set : List String) : value ∈ values.foldl
      (fun set value => if value ∈ set then set else set ++ [value]) set ↔
        value ∈ set ∨ value ∈ values := by
    induction values generalizing set with
    | nil => simp
    | cons v values ih =>
      rw [List.foldl_cons, ih, List.mem_cons]
      split_ifs with hmem
      · constructor
        · rintro (h | h)
          · exact .inl h
          · exact .inr (.inr h)
        · rintro (h | rfl | h)
          · exact .inl h
          · exact .inl hmem
          · exact .inr h
      · simp [or_assoc]
  rw [setOf, hfold]
  simp

theorem splitAddress_append {name domain : List Char} (hname : name ≠ []) (hdomain : domain ≠ [])
    (hat : '@' ∉ domain) : splitAddress (name ++ '@' :: domain) = some (name, domain) := by
  have hreverse : (name ++ '@' :: domain).reverse = domain.reverse ++ '@' :: name.reverse := by simp
  have hall : ∀ c ∈ domain.reverse, decide (c ≠ '@') = true := by
    intro c hc
    exact decide_eq_true fun heq => hat (heq ▸ List.mem_reverse.mp hc)
  simp only [splitAddress]
  rw [hreverse, List.takeWhile_append_of_pos hall, List.dropWhile_append_of_pos hall]
  simp [hname, hdomain]

/-- A new row is found by its id. -/
theorem find_createAttempt {db db' : AttemptDb} {row : AttemptRow}
    (h : db.createAttempt row = .ok db') : db'.find row.id = some row := by
  obtain ⟨hcons, rfl⟩ := AttemptDb.createAttempt_eq_ok_iff.mp h
  have hnone : db.attempt.find? (fun r => r.id == row.id) = none := by
    refine List.find?_eq_none.mpr fun r hr hid => ?_
    have hclash := (List.pairwise_append.mp hcons).2.2 r hr row (List.mem_singleton_self row)
    simp [clash, beq_iff_eq.mp hid] at hclash
  simp [AttemptDb.find, List.find?_append, hnone]

/-- What a call that has started an attempt returns and leaves. -/
theorem startBadgeRecovery_eq_ok {userIdentifier id nonce attemptId : String}
    (h : startBadgeRecovery toLowerCase true userIdentifier now id nonce t = .ok (result, t'))
    (hattempt : result.attemptId = some attemptId) :
    ∃ userId score,
      t'.attempts.find attemptId = some (newAttempt attemptId nonce userId score now) ∧
      result.domains = some (offeredDomains (offeredBadges t.badge userId)) ∧
      t'.badge = t.badge := by
  simp only [startBadgeRecovery, Bool.true_eq_false, if_false] at h
  split at h
  · cases h
    cases hattempt
  · split at h
    · cases h
      cases hattempt
    · rename_i userId _
      obtain ⟨score, -, h⟩ := bind_eq_ok_iff.mp h
      obtain ⟨attempts, hcreate, h⟩ := bind_eq_ok_iff.mp h
      cases h
      cases hattempt
      exact ⟨userId, score, find_createAttempt (stmt_eq_ok_iff.mp hcreate), rfl, rfl⟩

theorem mem_offeredDomains {badge : List OfferedBadge} {userId : UserId} {domain : String} :
    domain ∈ offeredDomains (offeredBadges badge userId) ↔
      ∃ b ∈ badge, b.userId = userId ∧ b.type = "email-domain" ∧ b.isPublic = false ∧
        b.domain = some domain := by
  have heligible : "email-domain" ∈ recoveryEligibleTypes := by decide
  simp only [offeredDomains, mem_setOf, List.mem_filterMap, offeredBadges, mem_findMany,
    decide_eq_true_eq]
  constructor
  · rintro ⟨b, ⟨⟨⟨hb, huser, hpublic⟩, -⟩, htype⟩, hdomain⟩
    exact ⟨b, hb, huser, htype, hpublic, hdomain⟩
  · rintro ⟨b, hb, huser, htype, hpublic, hdomain⟩
    exact ⟨b, ⟨⟨⟨hb, huser, hpublic⟩, htype ▸ heligible⟩, htype⟩, hdomain⟩

/-- An address at a domain is accepted if the badge that comes first is one for it. -/
theorem requestEmailDomainReProof_ok_iff {attemptId text domain : String} {row : AttemptRow}
    (hrow : t.attempts.find attemptId = some row) (hpending : row.status = "pending")
    (hlive : now < row.expiresAt) (haddress : AddressAt toLowerCase text domain) :
    (∃ link, requestEmailDomainReProof toLowerCase true attemptId text now t = .ok link) ↔
      HeldFirst toLowerCase t.badge row.userId domain := by
  obtain ⟨name, hname, hdomain, hat, htext⟩ := haddress
  have hnot : ¬(row.status ≠ "pending" ∨ row.expiresAt ≤ now) := by
    rintro (h | h)
    · exact h hpending
    · exact absurd hlive (not_lt.mpr h)
  simp only [requestEmailDomainReProof, Bool.true_eq_false, if_false, htext,
    splitAddress_append hname hdomain hat, hrow, if_neg hnot, HeldFirst]
  cases hheld : (heldBadge t.badge row.userId).bind (·.domain) with
  | none => simp
  | some held =>
    by_cases hempty : held = ""
    · simp [hempty]
    · by_cases heq : toLowerCase held = toLowerCase domain
      · simp [hempty, heq]
      · simp [hempty, heq, String.toList_inj]

end Facts

/-- **Every domain that is offered can be used** if and only if the email-domain badges of the
account are all for the domain of the first. The attempt has to be pending and the badges as they
were. -/
theorem offers_usable_iff (toLowerCase : String → String) {t t' t₂ : OfferTables}
    {now later : Timestamp} {result : StartRecoveryResult}
    {userIdentifier id nonce attemptId : String} {row row₂ : AttemptRow}
    (h : startBadgeRecovery toLowerCase true userIdentifier now id nonce t = .ok (result, t'))
    (hattempt : result.attemptId = some attemptId) (hrow : t'.attempts.find attemptId = some row)
    (hrow₂ : t₂.attempts.find attemptId = some row₂) (huser : row₂.userId = row.userId)
    (hpending : row₂.status = "pending") (hlive : later < row₂.expiresAt)
    (hbadges : t₂.badge = t'.badge) :
    (∀ domains, result.domains = some domains → ∀ domain ∈ domains, ∀ text,
      AddressAt toLowerCase text domain →
        ∃ link, requestEmailDomainReProof toLowerCase true attemptId text later t₂ = .ok link) ↔
    ∀ b ∈ t.badge, b.userId = row.userId → b.type = "email-domain" → b.isPublic = false →
      ∀ domain, b.domain = some domain → (∃ text, AddressAt toLowerCase text domain) →
        HeldFirst toLowerCase t.badge row.userId domain := by
  obtain ⟨userId, score, hfind, hdomains, hsame⟩ := startBadgeRecovery_eq_ok h hattempt
  obtain rfl : newAttempt attemptId nonce userId score now = row :=
    Option.some.inj (hfind.symm.trans hrow)
  have haccepted {text domain : String} (haddress : AddressAt toLowerCase text domain) :
      (∃ link, requestEmailDomainReProof toLowerCase true attemptId text later t₂ = .ok link) ↔
        HeldFirst toLowerCase t.badge userId domain := by
    rw [requestEmailDomainReProof_ok_iff hrow₂ hpending hlive haddress, huser, hbadges, hsame]
    rfl
  constructor
  · rintro hall b hb hof htype hpublic domain hdomain ⟨text, haddress⟩
    refine (haccepted haddress).mp (hall _ hdomains domain ?_ text haddress)
    exact mem_offeredDomains.mpr ⟨b, hb, hof, htype, hpublic, hdomain⟩
  · intro hfirst domains heq domain hmem text haddress
    obtain rfl := Option.some.inj (hdomains.symm.trans heq)
    obtain ⟨b, hb, hof, htype, hpublic, hdomain⟩ := mem_offeredDomains.mp hmem
    exact (haccepted haddress).mpr (hfirst b hb hof htype hpublic domain hdomain ⟨text, haddress⟩)

/-! ### An account with two domains -/

/-- An account with email-domain badges for these domains. -/
def offerTables (domains : List String) : OfferTables where
  userEmail := [⟨"e1", "u", "ann@mail.example", some 0, true⟩]
  user := [⟨"u", some "ann@mail.example", false, false, 0, none, none, none⟩]
  badge := domains.map fun d => ⟨⟨⟨"b:" ++ d, "u", "email-domain", none, none⟩, false⟩, some d⟩
  config := ⟨[], some { threshold := 100 }, .nil⟩
  attempts := ⟨[], [], .nil, .nil⟩

def asciiLower (text : String) : String := String.ofList (text.toList.map Char.toLower)

/-- Two badges for one domain, which they spell differently. -/
theorem oneDomain_usable : ∃ result t,
    startBadgeRecovery asciiLower true "ann@mail.example" 0 "a1" "n1"
        (offerTables ["Corp.example", "corp.example"]) = .ok (result, t) ∧
      result.domains = some ["Corp.example", "corp.example"] ∧
      ∀ domains, result.domains = some domains → ∀ domain ∈ domains, ∀ text,
        AddressAt asciiLower text domain →
          ∃ link, requestEmailDomainReProof asciiLower true "a1" text 5 t = .ok link := by
  have hlower : asciiLower "Corp.example" = asciiLower "corp.example" := by decide +kernel
  obtain ⟨result, t, hok, hdomains, hattempt, hrow⟩ : ∃ result t,
      startBadgeRecovery asciiLower true "ann@mail.example" 0 "a1" "n1"
          (offerTables ["Corp.example", "corp.example"]) = .ok (result, t) ∧
        result.domains = some ["Corp.example", "corp.example"] ∧ result.attemptId = some "a1" ∧
        t.attempts.find "a1" = some (newAttempt "a1" "n1" "u" 100 0) := ⟨_, _, rfl, rfl, rfl, rfl⟩
  refine ⟨result, t, hok, hdomains, (offers_usable_iff asciiLower hok hattempt hrow hrow rfl rfl
    (by decide) rfl).mpr ?_⟩
  rintro b hb - - - domain hdomain -
  refine ⟨"Corp.example", rfl, by decide, ?_⟩
  rcases List.mem_pair.mp hb with rfl | rfl <;> cases hdomain
  · rfl
  · exact hlower

/-- Both domains are offered, and an address at the second is refused. -/
theorem twoDomains_refused : ∃ result t,
    startBadgeRecovery id true "ann@mail.example" 0 "a1" "n1"
        (offerTables ["corp.example", "uni.example"]) = .ok (result, t) ∧
      result.attemptId = some "a1" ∧ result.domains = some ["corp.example", "uni.example"] ∧
      t.attempts.find "a1" = some (newAttempt "a1" "n1" "u" 100 0) ∧
      AddressAt id "ann@uni.example" "uni.example" ∧
      requestEmailDomainReProof id true "a1" "ann@uni.example" 5 t =
        .error "That address can't be used to recover this account." :=
  ⟨_, _, rfl, rfl, rfl, rfl, ⟨"ann".toList, by decide, by decide, by decide, by decide⟩,
    by decide +kernel⟩

end Minister.Recovery

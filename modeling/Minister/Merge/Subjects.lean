import Minister.Merge.RoundTrip

/-!
# The subject seam

A relying party knows an account by the subject `resolveSub` of
`lib/oidc-subject.ts` gives: the override for the client if there is one, the
pairwise derivation otherwise. A merge is meant to keep every subject the
survivor already presents, and to take over the donor's everywhere else.

It does so exactly when the donor's own overrides, left over from earlier merges
into the donor, do not get in the way: at a client where the survivor has no
override, an override of the donor replaces the subject the survivor presents to
a client it already used, and collides with the one the merge inserts for a
client only the donor used.
-/

namespace Minister

open Relational

variable {S D : UserId} {db : Db} {pairwise : UserId → ClientId → String} {c : ClientId}

/-- The subject an account presents to a client. -/
def resolveSub (pairwise : UserId → ClientId → String) (db : Db) (userId : UserId)
    (clientId : ClientId) : String :=
  match at? db.subjectOverride userId clientId with
  | some override => override.sub
  | none => pairwise userId clientId

/-- The account has presented a subject to the client: it holds a token or an
override there. -/
def UsesClient (db : Db) (userId : UserId) (clientId : ClientId) : Prop :=
  clientId ∈ tokenClients userId db.oidcAccessToken ∨
    at? db.subjectOverride userId clientId ≠ none

/-! ### The override table after a merge -/

/-- The overrides a merge leaves: those moved, and those created. -/
def mergedOverrides (pairwise : UserId → ClientId → String) (S D : UserId) (db : Db) :
    List SubjectOverride :=
  movedOverrides S D db.subjectOverride ++ createdOverrides S (precomputeSubs pairwise D db) db

theorem at?_movedOverrides {t : List SubjectOverride} (h : Consistent t) :
    at? (movedOverrides S D t) S c = (at? t S c).or ((at? t D c).map (setHolder S)) := by
  have hmoved := consistent_movedOverrides (S := S) (D := D) h
  rw [movedOverrides_eq] at hmoved ⊢
  by_cases hc : c ∈ movedClients S D t
  · obtain ⟨hD, hS⟩ := mem_movedClients.mp hc
    obtain ⟨o, ho⟩ := Option.ne_none_iff_exists'.mp hD
    rw [at?_handOver_target hmoved hc ho, hS, ho]
    rfl
  · rw [at?_handOver_of_not_mem hc]
    cases hS : at? t S c with
    | some o => rfl
    | none =>
      have hD : at? t D c = none := by
        by_contra hsome
        exact hc (mem_movedClients.mpr ⟨hsome, hS⟩)
      rw [hD]
      rfl

theorem mem_createdOverrides {o : SubjectOverride} :
    o ∈ createdOverrides S (precomputeSubs pairwise D db) db ↔
      o.userId = S ∧ o.sub = pairwise D o.clientId ∧
        o.clientId ∈ tokenClients D db.oidcAccessToken ∧ ¬UsesClient db S o.clientId := by
  obtain ⟨u, c, s⟩ := o
  simp only [createdOverrides, seamInputs, precomputeSubs, survivorUsedClients, List.mem_map,
    mem_findMany, List.mem_append, decide_eq_true_eq, UsesClient, mem_overrideClients,
    SubjectOverride.mk.injEq]
  constructor
  · rintro ⟨ov, ⟨⟨c', hc', rfl⟩, hno⟩, rfl, rfl, rfl⟩
    exact ⟨rfl, rfl, hc', hno⟩
  · rintro ⟨rfl, rfl, hc, hno⟩
    exact ⟨⟨c, pairwise D c⟩, ⟨⟨c, hc, rfl⟩, hno⟩, rfl, rfl, rfl⟩

/-- The inserts pass exactly when no client only the donor used already has an
override of the donor's on its way to the survivor. -/
theorem consistent_overrides_iff (hdb : db.Consistent) :
    Consistent (mergedOverrides pairwise S D db) ↔
      ∀ c ∈ tokenClients D db.oidcAccessToken, ¬UsesClient db S c →
        at? db.subjectOverride D c = none := by
  have hmoved := consistent_movedOverrides (S := S) (D := D) hdb.subjectOverride
  have hfree : ∀ c, ¬UsesClient db S c →
      (at? (movedOverrides S D db.subjectOverride) S c = none ↔
        at? db.subjectOverride D c = none) := by
    intro c hno
    have hnone : at? db.subjectOverride S c = none := by
      by_contra hsome
      exact hno (.inr hsome)
    rw [at?_movedOverrides hdb.subjectOverride, hnone]
    simp
  have hcreated : (createdOverrides S (precomputeSubs pairwise D db) db).Pairwise
      fun a b => clash a b = false := by
    have hsubs : (precomputeSubs pairwise D db).Pairwise fun a b => a.clientId ≠ b.clientId :=
      List.Pairwise.map _ (fun _ _ hne => hne) (List.nodup_dedup _)
    refine List.Pairwise.map _ (fun a b hne => ?_) (List.Pairwise.filter _ hsubs)
    simp [clash, hne]
  unfold Consistent at hmoved ⊢
  rw [mergedOverrides, List.pairwise_append]
  constructor
  · rintro ⟨-, -, hcross⟩ c hc hno
    rw [← hfree c hno, at?_eq_none_iff]
    intro o ho hoS hoc
    have hmem : (⟨S, c, pairwise D c⟩ : SubjectOverride) ∈
        createdOverrides S (precomputeSubs pairwise D db) db :=
      mem_createdOverrides.mpr ⟨rfl, rfl, hc, hno⟩
    have hclash := hcross o ho _ hmem
    rw [Slotted.clash_of_slot o _ hoS hoc] at hclash
    exact Bool.noConfusion hclash
  · intro h
    refine ⟨hmoved, hcreated, fun o ho o' ho' => ?_⟩
    obtain ⟨hS, -, hc, hno⟩ := mem_createdOverrides.mp ho'
    have hnone := at?_eq_none_iff.mp ((hfree _ hno).mpr (h _ hc hno)) o ho
    by_contra hclash
    simp only [clash, Bool.not_eq_false, Bool.and_eq_true, beq_iff_eq] at hclash
    exact hnone (hclash.1.trans hS) hclash.2

/-- The subject the survivor presents after a merge: by its own override, else by
the donor's, else the donor's derived one at a client only the donor used. -/
theorem resolveSub_merged (hdb : db.Consistent) {db₁ : Db}
    (hov : db₁.subjectOverride = mergedOverrides pairwise S D db) :
    resolveSub pairwise db₁ S c =
      match at? db.subjectOverride S c, at? db.subjectOverride D c with
      | some o, _ => o.sub
      | none, some o => o.sub
      | none, none =>
        if c ∈ tokenClients D db.oidcAccessToken ∧ c ∉ tokenClients S db.oidcAccessToken
        then pairwise D c else pairwise S c := by
  have happend : at? db₁.subjectOverride S c =
      (at? (movedOverrides S D db.subjectOverride) S c).or
        (at? (createdOverrides S (precomputeSubs pairwise D db) db) S c) := by
    rw [hov]
    exact List.find?_append
  unfold resolveSub
  rw [happend, at?_movedOverrides hdb.subjectOverride]
  cases hS : at? db.subjectOverride S c with
  | some o => rfl
  | none =>
  cases hD : at? db.subjectOverride D c with
  | some o => rfl
  | none =>
  cases hcr : at? (createdOverrides S (precomputeSubs pairwise D db) db) S c with
  | some o =>
    have hoc : o.clientId = c := (inSlot_eq_true.mp (List.find?_some hcr)).2
    obtain ⟨-, hsub, htok, hno⟩ := mem_createdOverrides.mp (List.mem_of_find?_eq_some hcr)
    rw [hoc] at hsub htok hno
    have htokS : c ∉ tokenClients S db.oidcAccessToken := fun h => hno (.inl h)
    simp [hsub, htok, htokS]
  | none =>
    have hnone : ¬(c ∈ tokenClients D db.oidcAccessToken ∧
        c ∉ tokenClients S db.oidcAccessToken) := by
      rintro ⟨htok, htokS⟩
      have hno : ¬UsesClient db S c := by
        rintro (h | h)
        · exact htokS h
        · exact h hS
      exact at?_eq_none_iff.mp hcr ⟨S, c, pairwise D c⟩
        (mem_createdOverrides.mpr ⟨rfl, rfl, htok, hno⟩) rfl rfl
    simp [hnone]

/-! ### Which subjects survive -/

/-- The merge commits, and the survivor presents its old subject wherever it had
one and the donor's wherever only the donor had one. -/
def KeepsSubjects (pairwise : UserId → ClientId → String) (inputs : MergeInputs)
    (S D : UserId) (db : Db) : Prop :=
  ∃ db₁ summary, mergeAccounts pairwise inputs S D db = .ok (db₁, summary) ∧
    ∀ c, (UsesClient db S c → resolveSub pairwise db₁ S c = resolveSub pairwise db S c) ∧
      (¬UsesClient db S c → UsesClient db D c →
        resolveSub pairwise db₁ S c = resolveSub pairwise db D c)

/-- Where the donor has an override and the survivor has none, the survivor holds
no token unless the override carries its own subject, and the donor holds no
token unless the survivor does. -/
def OverridesCompatible (pairwise : UserId → ClientId → String) (S D : UserId) (db : Db) : Prop :=
  ∀ o ∈ db.subjectOverride, o.userId = D → at? db.subjectOverride S o.clientId = none →
    if o.clientId ∈ tokenClients S db.oidcAccessToken then o.sub = pairwise S o.clientId
    else o.clientId ∉ tokenClients D db.oidcAccessToken

/-- With no write in between, the donor's token clients have not drifted. -/
theorem not_tokenClientsDrifted_precomputeSubs :
    ¬tokenClientsDrifted (tokenClients D db.oidcAccessToken)
      ((precomputeSubs pairwise D db).map (·.clientId)) := by
  have hclients : (precomputeSubs pairwise D db).map (·.clientId) =
      tokenClients D db.oidcAccessToken := by
    simp [precomputeSubs, Function.comp_def]
  rw [hclients]
  simp [tokenClientsDrifted]

/-- The overrides a committed merge leaves. -/
theorem subjectOverride_of_mergeAccounts {inputs : MergeInputs} {db₁ : Db}
    {summary : MergeSummary} (hdb : db.Consistent)
    (hmerge : mergeAccounts pairwise inputs S D db = .ok (db₁, summary)) :
    db₁.subjectOverride = mergedOverrides pairwise S D db ∧ Consistent db₁.subjectOverride := by
  obtain ⟨-, survivor, donor, p, entries, hready, -, rfl, hcons⟩ :=
    settledDb_of_mergeAccounts hdb hmerge
  obtain ⟨rfl, rfl⟩ := hready.ids
  exact ⟨rfl, hcons.subjectOverride⟩

theorem not_usesClient_iff {c : ClientId} :
    ¬UsesClient db S c ↔
      c ∉ tokenClients S db.oidcAccessToken ∧ at? db.subjectOverride S c = none := by
  simp [UsesClient]

/-- Compatibility in terms of lookups. -/
theorem OverridesCompatible.of_at? (h : OverridesCompatible pairwise S D db)
    (hdb : db.Consistent) {c : ClientId} {o : SubjectOverride}
    (hatD : at? db.subjectOverride D c = some o) (hatS : at? db.subjectOverride S c = none) :
    if c ∈ tokenClients S db.oidcAccessToken then o.sub = pairwise S c
    else c ∉ tokenClients D db.oidcAccessToken := by
  obtain ⟨ho, hoD, rfl⟩ := (at?_eq_some_iff hdb.subjectOverride).mp hatD
  exact h o ho hoD hatS

theorem KeepsSubjects.overridesCompatible {inputs : MergeInputs} (hdb : db.Consistent)
    (h : KeepsSubjects pairwise inputs S D db) : OverridesCompatible pairwise S D db := by
  obtain ⟨db₁, summary, hmerge, hsubs⟩ := h
  intro o ho hoD hnone
  obtain ⟨heq, hcons⟩ := subjectOverride_of_mergeAccounts hdb hmerge
  have hat : at? db.subjectOverride D o.clientId = some o :=
    (at?_eq_some_iff hdb.subjectOverride).mpr ⟨ho, hoD, rfl⟩
  split_ifs with htokS
  · -- The survivor used the client, so the moved override must say its subject.
    have hsub := (hsubs o.clientId).1 (.inl htokS)
    rw [resolveSub_merged hdb heq, hnone, hat] at hsub
    simpa [resolveSub, hnone] using hsub
  · -- Otherwise a donor token would make the merge create a second override.
    intro htokD
    rw [heq, consistent_overrides_iff hdb] at hcons
    simpa [hat] using hcons o.clientId htokD (not_usesClient_iff.mpr ⟨htokS, hnone⟩)

theorem OverridesCompatible.consistent (h : OverridesCompatible pairwise S D db)
    (hdb : db.Consistent) : Consistent (mergedOverrides pairwise S D db) := by
  refine (consistent_overrides_iff hdb).mpr fun c htokD hno => ?_
  obtain ⟨htokS, hatS⟩ := not_usesClient_iff.mp hno
  cases hatD : at? db.subjectOverride D c with
  | some o => simpa [htokS, htokD] using h.of_at? hdb hatD hatS
  | none => rfl

/-- Where the survivor had a subject it keeps it. -/
theorem OverridesCompatible.resolveSub_survivor (h : OverridesCompatible pairwise S D db)
    (hdb : db.Consistent) {db₁ : Db} (hov : db₁.subjectOverride = mergedOverrides pairwise S D db)
    {c : ClientId} (hused : UsesClient db S c) :
    resolveSub pairwise db₁ S c = resolveSub pairwise db S c := by
  rw [resolveSub_merged hdb hov]
  cases hatS : at? db.subjectOverride S c with
  | some o => simp [resolveSub, hatS]
  | none =>
    have htokS : c ∈ tokenClients S db.oidcAccessToken := by
      simpa [UsesClient, hatS] using hused
    cases hatD : at? db.subjectOverride D c with
    | some o => simpa [resolveSub, hatS, htokS] using h.of_at? hdb hatD hatS
    | none => simp [resolveSub, hatS, htokS]

/-- Where only the donor had a subject the survivor takes it over. -/
theorem resolveSub_donor (hdb : db.Consistent) {db₁ : Db}
    (hov : db₁.subjectOverride = mergedOverrides pairwise S D db) {c : ClientId}
    (hno : ¬UsesClient db S c) (hused : UsesClient db D c) :
    resolveSub pairwise db₁ S c = resolveSub pairwise db D c := by
  rw [resolveSub_merged hdb hov]
  obtain ⟨htokS, hatS⟩ := not_usesClient_iff.mp hno
  cases hatD : at? db.subjectOverride D c with
  | some o => simp [resolveSub, hatS, hatD]
  | none =>
    have htokD : c ∈ tokenClients D db.oidcAccessToken := by
      simpa [UsesClient, hatD] using hused
    simp [resolveSub, hatS, hatD, htokS, htokD]

/-- A merge of accounts that may be merged commits and keeps every subject exactly
when the overrides are compatible. -/
theorem mergeAccounts_keepsSubjects_iff {inputs : MergeInputs} {survivor donor : User}
    (hdb : db.Consistent) (hne : S ≠ D) (hS : findUser S db.user = some survivor)
    (hD : findUser D db.user = some donor) (hlive : donor.mergedIntoUserId = none)
    (hrecord : ∀ m ∈ db.mergeRecord, m.id ≠ inputs.recordId) :
    KeepsSubjects pairwise inputs S D db ↔ OverridesCompatible pairwise S D db := by
  refine ⟨KeepsSubjects.overridesCompatible hdb, fun hcompat => ?_⟩
  obtain ⟨⟨db₁, summary⟩, hmerge⟩ : ∃ out, mergeAccounts pairwise inputs S D db = .ok out :=
    ⟨_, (mergeAccounts_eq_ok_iff hdb).mpr ⟨hne, survivor, donor,
      ⟨hS, hD, hlive, not_tokenClientsDrifted_precomputeSubs, hcompat.consistent hdb, hrecord⟩,
      _, rfl, rfl⟩⟩
  have hov := (subjectOverride_of_mergeAccounts hdb hmerge).1
  refine ⟨db₁, summary, hmerge, fun c => ⟨fun hused => ?_, fun hno hused => ?_⟩⟩
  · exact hcompat.resolveSub_survivor hdb hov hused
  · exact resolveSub_donor hdb hov hno hused

/-- A pairwise derivation that never gives two accounts or clients one subject: the
characters of the account are marked, so that the client starts at the first unmarked one. -/
def markedPairwise (userId : UserId) (clientId : ClientId) : String :=
  String.ofList (userId.toList.flatMap (fun ch => ['+', ch]) ++ '/' :: clientId.toList)

/-- The donor keeps an override from an earlier merge at a client it never used
itself, and has a token at a client of its own. -/
def seamDb : Db where
  user := [liveUser "A" none, liveUser "B" none]
  subjectOverride := [⟨"B", "shop", "sub-of-C-at-shop"⟩]
  oidcAccessToken := [⟨"t1", "B", "forum"⟩, ⟨"t2", "A", "wiki"⟩]

theorem seamDb_keepsSubjects : KeepsSubjects markedPairwise sampleInputs "A" "B" seamDb := by
  have hdb : seamDb.Consistent := by constructor <;> decide
  exact (mergeAccounts_keepsSubjects_iff hdb (by decide) rfl rfl rfl (by simp [seamDb])).mpr
    (show ∀ o ∈ seamDb.subjectOverride, o.userId = "B" →
      at? seamDb.subjectOverride "A" o.clientId = none → _ from by decide)

/-- The donor has gone on to use the client of its override. -/
def usedSeamDb : Db where
  user := [liveUser "A" none, liveUser "B" none]
  subjectOverride := [⟨"B", "shop", "sub-of-C-at-shop"⟩]
  oidcAccessToken := [⟨"t1", "B", "shop"⟩]

/-- The survivor has used the client of the donor's override. -/
def sharedSeamDb : Db where
  user := [liveUser "A" none, liveUser "B" none]
  subjectOverride := [⟨"B", "shop", "sub-of-C-at-shop"⟩]
  oidcAccessToken := [⟨"t1", "A", "shop"⟩]

/-- In the first state the merge aborts on the override's key; in the second it
commits and the survivor presents the donor's subject to a client that knows it by
another. -/
theorem seam_not_kept :
    (usedSeamDb.Consistent ∧
      mergeAccounts markedPairwise sampleInputs "A" "B" usedSeamDb =
        .error (.db .uniqueViolation)) ∧
    (sharedSeamDb.Consistent ∧ UsesClient sharedSeamDb "A" "shop" ∧
      ∃ db₁ summary,
        mergeAccounts markedPairwise sampleInputs "A" "B" sharedSeamDb = .ok (db₁, summary) ∧
        resolveSub markedPairwise sharedSeamDb "A" "shop" = markedPairwise "A" "shop" ∧
        resolveSub markedPairwise db₁ "A" "shop" = "sub-of-C-at-shop") :=
  ⟨⟨by constructor <;> decide, rfl⟩, by constructor <;> decide, .inl (by decide), _, _, rfl, rfl,
    rfl⟩

end Minister

import Minister.Policy.Soundness

/-!
# Minimal disclosure

`minimizeToPolicy` keeps one way to meet the policy: a branch of each `anyOf`, as many
branches of each `atLeast` as it asks for, and for each leaf so required the first badge that
meets it. Each leaf takes its badge for itself, so a badge that would have done for two
leaves may be kept beside another one that it makes redundant.

Which way is kept is up to the ranking, which compares the ways to meet the branches of a node, and
nothing above the node. The alternatives that are offered beside it play no part.
-/

namespace Minister.Policy

/-! ### The way that is taken -/

section Ways

variable (badges : List UserBadge) (holderCounts : HolderCounts) (now : ℚ)

/-- Of the ways to meet the branches the `n` that rank first together, among the `n + 4` that rank
first alone, or the `n` that rank first alone if there is too much to choose from. -/
def firstTogether (n : ℕ) (ways : List Selection) : Option Selection :=
  if ways.length < n then none
  else if maxAtleastCombinations < chooseCount (shortlist holderCounts n ways).length n then
    some (mergeSelections ((sortSelections holderCounts ways).take n))
  else
    bestOf holderCounts ((nCombinations (shortlist holderCounts n ways) n).map mergeSelections)

mutual

/-- The way to meet a policy that the ranking takes, if there is one. -/
def takenWay : PolicyNode → Option Selection
  | .badge leaf =>
    (badges.find? fun b => badgeSatisfiesLeaf leaf b now).map fun b => ⟨[b.id], [b.type]⟩
  | .allOf nodes => (allSome (takenWays nodes)).map mergeSelections
  | .anyOf nodes => bestOf holderCounts (takenWays nodes).reduceOption
  | .atLeast n nodes => firstTogether holderCounts n (takenWays nodes).reduceOption

/-- The ways taken for the branches. -/
def takenWays : List PolicyNode → List (Option Selection)
  | [] => []
  | child :: children => takenWay child :: takenWays children

end

end Ways

section Taken

variable {badges : List UserBadge} {holderCounts : HolderCounts} {now : ℚ}
  {selections : List Selection} {p : PolicyNode} {n : ℕ}

theorem head?_rankAndCap :
    (rankAndCap holderCounts selections).head? = bestOf holderCounts selections := by
  rw [bestOf_eq_head?, rankAndCap]
  cases sortSelections holderCounts selections with
  | nil => rfl
  | cons first rest => rfl

/-- The best of what has been ranked is the first of it. -/
theorem bestOf_rankAndCap : bestOf holderCounts (rankAndCap holderCounts selections) =
    (rankAndCap holderCounts selections).head? := by
  rw [bestOf_eq_head?]
  exact congrArg List.head? ((pairwise_sortSelections selections).sublist
    rankAndCap_sublist).insertionSort_eq

theorem bestOf_combine : bestOf holderCounts (combine holderCounts n selections) =
    (combine holderCounts n selections).head? := by
  unfold combine
  split_ifs
  · rfl
  · rfl
  · rfl
  · exact bestOf_rankAndCap

/-- A node above takes the same offer as the whole. -/
theorem bestFor_eq_head? : bestFor badges holderCounts now p =
    (selectionsFor badges holderCounts now p).head? := by
  unfold bestFor
  cases p with
  | badge leaf | anyOf nodes =>
    rw [selectionsFor]
    exact bestOf_rankAndCap
  | allOf nodes =>
    rw [selectionsFor]
    split <;> rfl
  | atLeast n nodes =>
    rw [selectionsFor]
    exact bestOf_combine

theorem head?_combine :
    (combine holderCounts n selections).head? = firstTogether holderCounts n selections := by
  unfold combine firstTogether
  rcases Nat.eq_zero_or_pos n with rfl | hn
  · simp [chooseCount, maxAtleastCombinations, nCombinations, bestOf, mergeSelections]
  · rw [if_neg (Nat.not_le.mpr hn)]
    split_ifs
    · rfl
    · rfl
    · exact head?_rankAndCap

/-- Badges that meet a leaf are of one type and rank alike, so the first one is taken. -/
theorem head?_selectionsFor_badge {leaf : BadgeLeaf} :
    (selectionsFor badges holderCounts now (.badge leaf)).head? =
      (badges.find? fun b => badgeSatisfiesLeaf leaf b now).map fun b => ⟨[b.id], [b.type]⟩ := by
  rw [selectionsFor, head?_rankAndCap, bestOf_eq_head?, ← List.head?_filter, ← List.head?_map]
  congr 1
  apply List.Pairwise.insertionSort_eq
  refine List.pairwise_of_forall_mem_list fun s hs t ht => ?_
  have htype {s : Selection} (hs : s ∈ (badges.filter fun b => badgeSatisfiesLeaf leaf b now).map
      fun b => ⟨[b.id], [b.type]⟩) : ∃ id, s = ⟨[id], [leaf.type]⟩ := by
    obtain ⟨b, hb, rfl⟩ := List.mem_map.mp hs
    have hleaf := (List.mem_filter.mp hb).2
    simp only [badgeSatisfiesLeaf, Bool.and_eq_true, decide_eq_true_eq] at hleaf
    exact ⟨b.id, by rw [hleaf.1.1]⟩
  obtain ⟨id, rfl⟩ := htype hs
  obtain ⟨id', rfl⟩ := htype ht
  exact compareSelections_ne_gt_iff.mpr le_rfl

/-- The first offer for a policy is the way taken. -/
theorem head?_selectionsFor (p : PolicyNode) :
    (selectionsFor badges holderCounts now p).head? = takenWay badges holderCounts now p := by
  have hways {nodes : List PolicyNode}
      (ih : ∀ c ∈ nodes, (selectionsFor badges holderCounts now c).head? =
        takenWay badges holderCounts now c) :
      bestsFor badges holderCounts now nodes = takenWays badges holderCounts now nodes := by
    induction nodes with
    | nil => rfl
    | cons c nodes ihn =>
      rw [bestsFor, takenWays, ← ih c List.mem_cons_self, ← bestFor_eq_head?, bestFor,
        ihn fun c' hc' => ih c' (List.mem_cons_of_mem c hc')]
  induction p with
  | badge leaf =>
    rw [takenWay]
    exact head?_selectionsFor_badge
  | allOf nodes ih =>
    rw [takenWay, selectionsFor, hways ih]
    cases allSome (takenWays badges holderCounts now nodes) <;> rfl
  | anyOf nodes ih => rw [takenWay, selectionsFor, hways ih, head?_rankAndCap]
  | atLeast n nodes ih => rw [takenWay, selectionsFor, hways ih, head?_combine]

/-- What is kept is the way that is taken. -/
theorem minimizeToPolicy_eq_pick (h : meets badges now p = true) :
    ∃ way, takenWay badges holderCounts now p = some way ∧
      minimizeToPolicy badges holderCounts now (some p) = pick badges way.badgeIds := by
  obtain ⟨best, rest, hcons⟩ := List.exists_cons_of_ne_nil
    (selectionsFor_ne_nil_iff.mpr h : selectionsFor badges holderCounts now p ≠ [])
  refine ⟨best, by rw [← head?_selectionsFor, hcons, List.head?_cons], ?_⟩
  rw [minimizeToPolicy, selectMinimalAnonymitySet, hcons]
  rfl

end Taken

/-! ### Minimality -/

/-- The badges satisfy the policy, and without any one of them they do not. -/
structure Irredundant (now : ℚ) (p : PolicyNode) (badges : List UserBadge) : Prop where
  satisfies : evaluate badges now p = true
  needed : ∀ b ∈ badges, evaluate (badges.erase b) now p = false

instance (now : ℚ) (p : PolicyNode) (badges : List UserBadge) :
    Decidable (Irredundant now p badges) :=
  decidable_of_iff
    (evaluate badges now p = true ∧ ∀ b ∈ badges, evaluate (badges.erase b) now p = false)
    ⟨fun h => ⟨h.1, h.2⟩, fun h => ⟨h.satisfies, h.needed⟩⟩

def githubAccount : UserBadge := ⟨"g", "oauth-account", [("provider", .string "github")], 0⟩

def googleAccount : UserBadge := ⟨"x", "oauth-account", [("provider", .string "google")], 0⟩

def emailAddress : UserBadge := ⟨"e", "email-domain", [], 0⟩

/-- Leaves of different types. -/
def accountAndEmail : PolicyNode := .allOf [oauthLeaf, .badge { type := "email-domain" }]

/-- An account, and a Google account. -/
def accountAndGoogle : PolicyNode :=
  .allOf [oauthLeaf,
    .badge { type := "oauth-account", whereAttrs := [("provider", .string "google")] }]

end Minister.Policy

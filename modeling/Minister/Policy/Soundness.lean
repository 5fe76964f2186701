import Mathlib.Data.List.ReduceOption
import Minister.Policy.Ranking

/-!
# Selection and evaluation

The selection for a policy and the evaluation of a policy read `atLeast` differently. The
evaluation asks for distinct badges, one for each branch that counts. The selection counts
the branches that have an offer, and puts the offers together, whether or not they share
badges and whether or not one badge is enough for a branch.

Here `meets` is the reading by counting. A policy has a selection exactly if the badges held
meet it in this sense, and then so do the badges selected. So the selection is sound for
every holder exactly if no set of badges meets the policy by counting only. In the other
direction there is nothing to ask for: what is met with distinct badges is met by counting,
and ranking and capping never drop the last offer.
-/

namespace Minister.Policy

/-! ### Counting -/

/-- Distinct indices of elements with a property are at most as many as those elements. -/
theorem length_le_countP {α : Type*} {xs : List α} {P : α → Bool} {is : List ℕ} (hnodup : is.Nodup)
    (h : ∀ i ∈ is, ∃ x, xs[i]? = some x ∧ P x = true) : is.length ≤ xs.countP P := by
  have hsub : is ⊆ (xs.zipIdx.filter fun q => P q.1).map Prod.snd := by
    intro i hi
    obtain ⟨x, hx, hP⟩ := h i hi
    exact List.mem_map.mpr
      ⟨(x, i), List.mem_filter.mpr ⟨List.mem_zipIdx_iff_getElem?.mpr hx, hP⟩, rfl⟩
  calc is.length
      ≤ ((xs.zipIdx.filter fun q => P q.1).map Prod.snd).length :=
        (List.subperm_of_subset hnodup hsub).length_le
    _ = (xs.zipIdx.map Prod.fst).countP P := by
        rw [List.length_map, ← List.countP_eq_length_filter, List.countP_map]
        rfl
    _ = xs.countP P := by rw [List.zipIdx_map_fst]

mutual

/-- The policy is met if `atLeast` counts the branches that are met, each by any of the
badges. -/
def meets (badges : List UserBadge) (now : ℚ) : PolicyNode → Bool
  | .badge leaf => leafSatisfied leaf badges now
  | .allOf nodes => meetsCount badges now nodes = nodes.length
  | .anyOf nodes => 0 < meetsCount badges now nodes
  | .atLeast n nodes => n ≤ meetsCount badges now nodes

/-- The number of nodes that are met. -/
def meetsCount (badges : List UserBadge) (now : ℚ) : List PolicyNode → ℕ
  | [] => 0
  | node :: nodes => meetsCount badges now nodes + if meets badges now node then 1 else 0

end

section Counting

variable {badges badges' : List UserBadge} {now : ℚ} {nodes : List PolicyNode} {n : ℕ}
  {p : PolicyNode}

theorem meetsCount_eq_countP : meetsCount badges now nodes = nodes.countP (meets badges now) := by
  induction nodes with
  | nil => rfl
  | cons node nodes ih => rw [meetsCount, ih, List.countP_cons]

theorem meets_badge (leaf : BadgeLeaf) :
    meets badges now (.badge leaf) = true ↔
      ∃ b ∈ badges, badgeSatisfiesLeaf leaf b now = true := by
  rw [meets, leafSatisfied, List.any_eq_true]

theorem meets_allOf :
    meets badges now (.allOf nodes) = true ↔ ∀ c ∈ nodes, meets badges now c = true := by
  rw [meets, decide_eq_true_iff, meetsCount_eq_countP, List.countP_eq_length]

theorem meets_anyOf :
    meets badges now (.anyOf nodes) = true ↔ ∃ c ∈ nodes, meets badges now c = true := by
  rw [meets, decide_eq_true_iff, meetsCount_eq_countP, List.countP_pos_iff]

theorem meets_atLeast :
    meets badges now (.atLeast n nodes) = true ↔ n ≤ nodes.countP (meets badges now) := by
  rw [meets, decide_eq_true_iff, meetsCount_eq_countP]

theorem meets_mono (hsub : badges ⊆ badges') (h : meets badges now p = true) :
    meets badges' now p = true := by
  induction p with
  | badge leaf =>
    obtain ⟨b, hb, hleaf⟩ := (meets_badge leaf).mp h
    exact (meets_badge leaf).mpr ⟨b, hsub hb, hleaf⟩
  | allOf nodes ih => exact meets_allOf.mpr fun c hc => ih c hc (meets_allOf.mp h c hc)
  | anyOf nodes ih =>
    obtain ⟨c, hc, hmet⟩ := meets_anyOf.mp h
    exact meets_anyOf.mpr ⟨c, hc, ih c hc hmet⟩
  | atLeast n nodes ih =>
    exact meets_atLeast.mpr (Nat.le_trans (meets_atLeast.mp h) (List.countP_mono_left ih))

/-- What is met with distinct badges is met by counting. -/
theorem meets_of_evaluate (h : evaluate badges now p = true) : meets badges now p = true := by
  induction p generalizing badges with
  | badge leaf => exact (meets_badge leaf).mpr ((evaluate_badge leaf).mp h)
  | allOf nodes ih => exact meets_allOf.mpr fun c hc => ih c hc (evaluate_allOf.mp h c hc)
  | anyOf nodes ih =>
    obtain ⟨c, hc, hmet⟩ := evaluate_anyOf.mp h
    exact meets_anyOf.mpr ⟨c, hc, ih c hc hmet⟩
  | atLeast n nodes ih =>
    obtain ⟨M, rfl, hleft, -, hedge⟩ := evaluate_atLeast_iff.mp h
    refine meets_atLeast.mpr ?_
    rw [← List.length_map Prod.fst]
    refine length_le_countP hleft fun i hi => ?_
    obtain ⟨q, hq, rfl⟩ := List.mem_map.mp hi
    obtain ⟨branch, b, hbranch, hb, hmet⟩ := hedge q hq
    refine ⟨branch, hbranch, meets_mono ?_ (ih branch (List.mem_of_getElem? hbranch) hmet)⟩
    exact List.cons_subset.mpr ⟨List.mem_of_getElem? hb, List.nil_subset _⟩

end Counting

/-! ### Offers -/

section Offers

variable {badges : List UserBadge} {holderCounts : HolderCounts} {now : ℚ}
  {nodes : List PolicyNode} {n : ℕ} {p : PolicyNode} {sel : Selection}

/-- What a node above takes. -/
def bestFor (badges : List UserBadge) (holderCounts : HolderCounts) (now : ℚ) (p : PolicyNode) :
    Option Selection :=
  bestOf holderCounts (selectionsFor badges holderCounts now p)

theorem bestsFor_eq_map : bestsFor badges holderCounts now nodes =
    nodes.map (bestFor badges holderCounts now) := by
  induction nodes with
  | nil => rfl
  | cons node nodes ih => rw [bestsFor, ih, List.map_cons, bestFor]

theorem reduceOption_bestsFor : (bestsFor badges holderCounts now nodes).reduceOption =
    nodes.filterMap (bestFor badges holderCounts now) := by
  rw [bestsFor_eq_map, List.reduceOption, List.filterMap_map]
  rfl

theorem allSome_eq_some_iff {α : Type*} {l : List (Option α)} {xs : List α} :
    allSome l = some xs ↔ l = xs.map some := by
  induction l generalizing xs with
  | nil =>
    rw [allSome, Option.some_inj, eq_comm, eq_comm (a := []), List.map_eq_nil_iff]
  | cons x l ih =>
    cases x with
    | none => cases xs <;> simp [allSome]
    | some x =>
      cases xs with
      | nil => simp [allSome]
      | cons y ys => simp [allSome, ih, and_comm]

theorem allSome_eq_none_iff {α : Type*} {l : List (Option α)} : allSome l = none ↔ none ∈ l := by
  induction l with
  | nil => simp [allSome]
  | cons x l ih =>
    cases x with
    | none => simp [allSome]
    | some x => simp [allSome, ih]

theorem mem_selectionsFor_badge {leaf : BadgeLeaf}
    (h : sel ∈ selectionsFor badges holderCounts now (.badge leaf)) :
    ∃ b ∈ badges, badgeSatisfiesLeaf leaf b now = true ∧ sel = ⟨[b.id], [b.type]⟩ := by
  rw [selectionsFor] at h
  obtain ⟨b, hb, rfl⟩ := List.mem_map.mp (mem_of_mem_rankAndCap h)
  obtain ⟨hmem, hleaf⟩ := List.mem_filter.mp hb
  exact ⟨b, hmem, hleaf, rfl⟩

/-- The only offer of an `allOf` node is put together from one offer of each child. -/
theorem mem_selectionsFor_allOf
    (h : sel ∈ selectionsFor badges holderCounts now (.allOf nodes)) :
    ∃ parts : List Selection,
      parts.map some = nodes.map (bestFor badges holderCounts now) ∧
      sel = mergeSelections parts := by
  rw [selectionsFor] at h
  split at h
  · exact absurd h List.not_mem_nil
  · rename_i parts hparts
    refine ⟨parts, ?_, List.mem_singleton.mp h⟩
    rw [← bestsFor_eq_map, allSome_eq_some_iff.mp hparts]

theorem mem_selectionsFor_anyOf
    (h : sel ∈ selectionsFor badges holderCounts now (.anyOf nodes)) :
    ∃ c ∈ nodes, sel ∈ selectionsFor badges holderCounts now c := by
  rw [selectionsFor, reduceOption_bestsFor] at h
  obtain ⟨c, hc, hbest⟩ := List.mem_filterMap.mp (mem_of_mem_rankAndCap h)
  exact ⟨c, hc, bestOf_mem hbest⟩

theorem mem_selectionsFor_atLeast
    (h : sel ∈ selectionsFor badges holderCounts now (.atLeast n nodes)) :
    ∃ parts : List Selection,
      parts.Subperm (nodes.filterMap (bestFor badges holderCounts now)) ∧
      parts.length = n ∧ sel = mergeSelections parts := by
  rw [selectionsFor, reduceOption_bestsFor] at h
  exact mem_combine h

/-- The badges with the given ids. -/
def pick (badges : List UserBadge) (ids : List String) : List UserBadge :=
  badges.filter fun b => b.id ∈ ids

theorem pick_sublist_pick {ids ids' : List String} (h : ids ⊆ ids') :
    (pick badges ids).Sublist (pick badges ids') := by
  apply List.monotone_filter_right
  intro b hb
  exact decide_eq_true (h (of_decide_eq_true hb))

/-- What is selected meets the policy by counting. -/
theorem meets_of_mem_selectionsFor (h : sel ∈ selectionsFor badges holderCounts now p) :
    meets (pick badges sel.badgeIds) now p = true := by
  induction p generalizing sel with
  | badge leaf =>
    obtain ⟨b, hb, hleaf, rfl⟩ := mem_selectionsFor_badge h
    refine (meets_badge leaf).mpr ⟨b, List.mem_filter.mpr ⟨hb, ?_⟩, hleaf⟩
    simp
  | allOf nodes ih =>
    obtain ⟨parts, hparts, rfl⟩ := mem_selectionsFor_allOf h
    refine meets_allOf.mpr fun c hc => ?_
    -- The offer of the child is one of the parts.
    have hbest := List.mem_map_of_mem (f := bestFor badges holderCounts now) hc
    rw [← hparts] at hbest
    obtain ⟨part, hpart, hsome⟩ := List.mem_map.mp hbest
    have hpick : (pick badges part.badgeIds).Sublist
        (pick badges (mergeSelections parts).badgeIds) :=
      pick_sublist_pick fun id hid => mem_mergeSelections.mpr ⟨part, hpart, hid⟩
    exact meets_mono hpick.subset (ih c hc (bestOf_mem hsome.symm))
  | anyOf nodes ih =>
    obtain ⟨c, hc, hsel⟩ := mem_selectionsFor_anyOf h
    exact meets_anyOf.mpr ⟨c, hc, ih c hc hsel⟩
  | atLeast n nodes ih =>
    obtain ⟨parts, hparts, rfl, rfl⟩ := mem_selectionsFor_atLeast h
    refine meets_atLeast.mpr ?_
    have hin (part : Selection) (hpart : part ∈ parts) :
        part.badgeIds ⊆ (mergeSelections parts).badgeIds :=
      fun id hid => mem_mergeSelections.mpr ⟨part, hpart, hid⟩
    -- Each part is the offer of a child that it meets.
    calc parts.length
        = parts.countP fun s => s.badgeIds ⊆ (mergeSelections parts).badgeIds := by
          rw [eq_comm, List.countP_eq_length]
          exact fun part hpart => decide_eq_true (hin part hpart)
      _ ≤ (nodes.filterMap (bestFor badges holderCounts now)).countP
          fun s => s.badgeIds ⊆ (mergeSelections parts).badgeIds := hparts.countP_le _
      _ ≤ nodes.countP (meets (pick badges (mergeSelections parts).badgeIds) now) := by
          rw [List.countP_filterMap]
          refine List.countP_mono_left fun c hc hmet => ?_
          cases hbest : bestFor badges holderCounts now c with
          | none => simp [hbest] at hmet
          | some s =>
            rw [hbest] at hmet
            have hsub : s.badgeIds ⊆ (mergeSelections parts).badgeIds := by simpa using hmet
            exact meets_mono (pick_sublist_pick hsub).subset (ih c hc (bestOf_mem hbest))

theorem offer_of_children
    (ih : ∀ c ∈ nodes, selectionsFor badges holderCounts now c ≠ [] ↔ meets badges now c = true) :
    ∀ c ∈ nodes, (bestFor badges holderCounts now c).isSome = true ↔
      meets badges now c = true := by
  intro c hc
  rw [bestFor, bestOf_isSome]
  exact ih c hc

/-- There is a selection exactly if the badges meet the policy by counting. -/
theorem selectionsFor_ne_nil_iff :
    selectionsFor badges holderCounts now p ≠ [] ↔ meets badges now p = true := by
  induction p with
  | badge leaf =>
    rw [selectionsFor, ne_eq, rankAndCap_eq_nil_iff, List.map_eq_nil_iff, List.filter_eq_nil_iff,
      meets_badge]
    simp
  | allOf nodes ih =>
    have hoffer := offer_of_children ih
    rw [meets_allOf, selectionsFor]
    split
    · rename_i hnone
      rw [allSome_eq_none_iff, bestsFor_eq_map] at hnone
      obtain ⟨c, hc, hbest⟩ := List.mem_map.mp hnone
      refine iff_of_false (fun h => h rfl) fun hall => ?_
      have hsome := (hoffer c hc).mpr (hall c hc)
      rw [hbest] at hsome
      cases hsome
    · rename_i parts hparts
      rw [allSome_eq_some_iff, bestsFor_eq_map] at hparts
      refine iff_of_true (List.cons_ne_nil _ _) fun c hc => (hoffer c hc).mp ?_
      have hmem := List.mem_map_of_mem (f := bestFor badges holderCounts now) hc
      rw [hparts] at hmem
      obtain ⟨part, -, hpart⟩ := List.mem_map.mp hmem
      rw [← hpart]
      rfl
  | anyOf nodes ih =>
    have hoffer := offer_of_children ih
    rw [meets_anyOf, selectionsFor, ne_eq, rankAndCap_eq_nil_iff, reduceOption_bestsFor,
      List.filterMap_eq_nil_iff]
    constructor
    · intro hsome
      by_contra! hno
      refine hsome fun c hc => ?_
      rw [← Option.not_isSome_iff_eq_none, hoffer c hc]
      exact hno c hc
    · rintro ⟨c, hc, hmet⟩ hnone
      have hsome := (hoffer c hc).mpr hmet
      rw [hnone c hc] at hsome
      cases hsome
  | atLeast n nodes ih =>
    have hoffer := offer_of_children ih
    rw [meets_atLeast, selectionsFor, ne_eq, combine_eq_nil_iff, Nat.not_lt, reduceOption_bestsFor,
      List.length_filterMap_eq_countP, List.countP_congr hoffer]

/-! ### Results -/

theorem satisfiable_iff :
    (selectMinimalAnonymitySet badges holderCounts now p).satisfiable = true ↔
      meets badges now p = true := by
  have hoffers : selectionsFor badges holderCounts now p ≠ [] ↔ _ := selectionsFor_ne_nil_iff
  rw [← hoffers, selectMinimalAnonymitySet]
  split
  · rename_i hnil
    simp [hnil]
  · rename_i hcons
    simp [hcons]

/-- The badges selected meet the policy by counting. -/
theorem meets_selected
    (h : (selectMinimalAnonymitySet badges holderCounts now p).satisfiable = true) :
    meets (pick badges (selectMinimalAnonymitySet badges holderCounts now p).selectedBadgeIds)
      now p = true := by
  rw [selectMinimalAnonymitySet] at h ⊢
  split at h
  · cases h
  · rename_i best rest hcons
    apply meets_of_mem_selectionsFor
    rw [hcons]
    exact List.mem_cons_self

end Offers

/-- What is selected satisfies the policy, for whoever holds some of the badges, exactly if
every part of the badges that meets the policy by counting satisfies it. -/
theorem selection_sound_iff (policy : PolicyNode) (badges : List UserBadge)
    (holderCounts : HolderCounts) (now : ℚ) :
    (∀ held, held.Sublist badges →
      (selectMinimalAnonymitySet held holderCounts now policy).satisfiable = true →
        evaluate (pick held (selectMinimalAnonymitySet held holderCounts now
          policy).selectedBadgeIds) now policy = true) ↔
      ∀ held, held.Sublist badges → meets held now policy = true →
        evaluate held now policy = true := by
  constructor
  · intro hsound held hheld hmeets
    have hselected := hsound held hheld (satisfiable_iff.mpr hmeets)
    exact evaluate_mono List.filter_sublist hselected
  · intro hcount held hheld hsat
    exact hcount _ (List.filter_sublist.trans hheld) (meets_selected hsat)

def oauthLeaf : PolicyNode := .badge { type := "oauth-account" }

/-- One badge for two branches: there is a selection, and it does not satisfy the policy. -/
theorem selection_unsound :
    (selectMinimalAnonymitySet [⟨"g", "oauth-account", [], 0⟩] (fun _ => none) 0
        (.atLeast 2 [oauthLeaf, oauthLeaf])).satisfiable = true ∧
      evaluate (pick [⟨"g", "oauth-account", [], 0⟩]
        (selectMinimalAnonymitySet [⟨"g", "oauth-account", [], 0⟩] (fun _ => none) 0
          (.atLeast 2 [oauthLeaf, oauthLeaf])).selectedBadgeIds) 0
        (.atLeast 2 [oauthLeaf, oauthLeaf]) = false := by
  decide +kernel

/-- Who satisfies a policy has a selection for it. -/
theorem satisfiable_of_evaluate {policy : PolicyNode} {badges : List UserBadge} {now : ℚ}
    (holderCounts : HolderCounts) (h : evaluate badges now policy = true) :
    (selectMinimalAnonymitySet badges holderCounts now policy).satisfiable = true :=
  satisfiable_iff.mpr (meets_of_evaluate h)

theorem twoAccounts_satisfiable :
    (selectMinimalAnonymitySet [⟨"g", "oauth-account", [], 0⟩, ⟨"x", "oauth-account", [], 0⟩]
      (fun _ => none) 0 (.atLeast 2 [oauthLeaf, oauthLeaf])).satisfiable = true :=
  satisfiable_of_evaluate _ (by decide +kernel)

end Minister.Policy

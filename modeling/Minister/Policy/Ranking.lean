import Mathlib.Algebra.Order.Ring.Rat
import Mathlib.Data.List.Lex
import Mathlib.Data.Nat.Choose.Basic
import Mathlib.Data.Prod.Lex
import Mathlib.Order.Compare
import Mathlib.Tactic.Order
import Minister.Policy.Selection

/-!
# The ranking of selections and the combinations

`compareSelections` compares vectors that may differ in length, then the number of badges, then the
types. It is the order of one key, so sorting by it makes sense, and `bestOf` is the first of the
sorted selections.

The combinations that are ranked for an `atLeast` node are counted before they are made, by a loop
that stops above the cap. The code makes them by backtracking over one prefix, which `pickLoop`
follows.
-/

namespace Minister.Policy

/-! ### The order -/

section Order

variable {holderCounts : HolderCounts} {a b : Selection}

/-- What the ranking compares, least first. -/
def rank (holderCounts : HolderCounts) (s : Selection) : List ℚᵒᵈ ×ₗ ℕ ×ₗ List ℕ :=
  toLex ((anonymityVector s.types holderCounts).map OrderDual.toDual,
    toLex (s.badgeIds.length, utf16 (sortedKey s.types)))

/-- A vector that has ended comes before its continuations, as an infinite count does. -/
theorem compareVectors_eq (v w : List ℚ) :
    compareVectors v w = cmp (v.map OrderDual.toDual) (w.map OrderDual.toDual) := by
  induction v generalizing w with
  | nil => cases w <;> simp [compareVectors, cmp, cmpUsing]
  | cons x v ih =>
    cases w with
    | nil => simp [compareVectors, cmp, cmpUsing]
    | cons y w =>
      rw [compareVectors, ih]
      rcases lt_trichotomy x y with h | rfl | h
      · simp [cmp, cmpUsing, List.cons_lt_cons_iff, h, h.ne, h.ne', h.not_gt]
      · simp [cmp, cmpUsing]
      · simp [cmp, cmpUsing, List.cons_lt_cons_iff, h, h.ne']

theorem compareSelections_eq :
    compareSelections holderCounts a b = cmp (rank holderCounts a) (rank holderCounts b) := by
  have hkey (s t : String) : stringLt s t = true ↔ utf16 s < utf16 t := decide_eq_true_iff
  simp only [compareSelections, compareVectors_eq, hkey, cmp, cmpUsing, rank,
    Prod.Lex.toLex_lt_toLex]
  split_ifs <;> grind

theorem compareSelections_eq_lt_iff :
    compareSelections holderCounts a b = .lt ↔ rank holderCounts a < rank holderCounts b := by
  rw [compareSelections_eq, cmp_eq_lt_iff]

theorem compareSelections_ne_gt_iff :
    compareSelections holderCounts a b ≠ .gt ↔ rank holderCounts a ≤ rank holderCounts b := by
  rw [compareSelections_eq, ne_eq, cmp_eq_gt_iff, not_lt]

/-- The second of two if it is better. -/
def better (holderCounts : HolderCounts) (best s : Selection) : Selection :=
  if compareSelections holderCounts s best = .lt then s else best

instance : Std.Associative (better holderCounts) where
  assoc a b c := by
    simp only [better, compareSelections_eq_lt_iff]
    split_ifs <;> first | rfl | order

/-- The loop keeps what sorting puts first. -/
theorem bestOf_eq_head? (selections : List Selection) :
    bestOf holderCounts selections = (sortSelections holderCounts selections).head? := by
  induction selections with
  | nil => rfl
  | cons a rest ih =>
    cases rest with
    | nil => rfl
    | cons b rest =>
      obtain ⟨best, hbest⟩ : ∃ best, bestOf holderCounts (b :: rest) = some best := ⟨_, rfl⟩
      have hassoc : bestOf holderCounts (a :: b :: rest) =
          (bestOf holderCounts (b :: rest)).map (better holderCounts a) :=
        congrArg some (@List.foldl_assoc _ (better holderCounts) _ rest a b)
      obtain ⟨tail, htail⟩ := List.head?_eq_some_iff.mp (ih.symm.trans hbest)
      rw [sortSelections] at htail
      rw [hassoc, hbest, sortSelections, List.insertionSort_cons, htail, List.orderedInsert_cons]
      simp only [Option.map_some, better, compareSelections_eq_lt_iff, compareSelections_ne_gt_iff]
      split_ifs <;> first | rfl | order

theorem bestOf_mem {selections : List Selection} (h : bestOf holderCounts selections = some a) :
    a ∈ selections := by
  rw [bestOf_eq_head?] at h
  exact mem_sortSelections.mp (List.mem_of_head? h)

theorem pairwise_sortSelections (selections : List Selection) :
    (sortSelections holderCounts selections).Pairwise
      (compareSelections holderCounts · · ≠ .gt) := by
  have : Std.Total (compareSelections holderCounts · · ≠ .gt) :=
    ⟨fun a b => by simpa only [compareSelections_ne_gt_iff] using le_total _ _⟩
  have : IsTrans Selection (compareSelections holderCounts · · ≠ .gt) :=
    ⟨fun a b c => by simpa only [compareSelections_ne_gt_iff] using le_trans⟩
  exact List.pairwise_insertionSort _ selections

end Order

/-- The ranking is a total preorder: it is reflexive, antisymmetric in its sign and transitive. So
sorted selections are in order, and `bestOf` takes the first of them, which is not worse than any
candidate. -/
theorem compareSelections_preorder (holderCounts : HolderCounts) :
    (∀ a, compareSelections holderCounts a a = .eq) ∧
    (∀ a b, compareSelections holderCounts b a = (compareSelections holderCounts a b).swap) ∧
    (∀ a b c, compareSelections holderCounts a b ≠ .gt → compareSelections holderCounts b c ≠ .gt →
      compareSelections holderCounts a c ≠ .gt) ∧
    ∀ selections, bestOf holderCounts selections =
        (sortSelections holderCounts selections).head? ∧
      (sortSelections holderCounts selections).Pairwise
        (compareSelections holderCounts · · ≠ .gt) ∧
      ∀ best, bestOf holderCounts selections = some best →
        ∀ s ∈ selections, compareSelections holderCounts best s ≠ .gt := by
  refine ⟨fun a => ?_, fun a b => ?_, fun a b c hab hbc => ?_, fun selections =>
    ⟨bestOf_eq_head? selections, pairwise_sortSelections selections, fun best hbest s hs => ?_⟩⟩
  · rw [compareSelections_eq, cmp_self_eq_eq]
  · rw [compareSelections_eq, compareSelections_eq, cmp_swap]
  · rw [compareSelections_ne_gt_iff] at hab hbc ⊢
    exact hab.trans hbc
  · rw [bestOf_eq_head?] at hbest
    obtain ⟨tail, htail⟩ := List.head?_eq_some_iff.mp hbest
    have hall := List.pairwise_cons.mp (htail ▸ pairwise_sortSelections selections)
    have hmem : s ∈ best :: tail := htail ▸ (List.mem_insertionSort _).mpr hs
    rcases List.mem_cons.mp hmem with rfl | hmem
    · exact compareSelections_ne_gt_iff.mpr le_rfl
    · exact hall.1 s hmem

/-! ### Combinations -/

/-- The divisions of `chooseLoop`, the dividend first. -/
def chooseDivisions (k : ℕ) : ℕ → ℕ → ℕ → List (ℕ × ℕ)
  | 0, _, _ => []
  | rounds + 1, i, result =>
    (result * (k - i), i + 1) ::
      if maxAtleastCombinations < result * (k - i) / (i + 1) then []
      else chooseDivisions k rounds (i + 1) (result * (k - i) / (i + 1))

/-- `pick` from its loop on: the items left, the prefix that is shared and the output. -/
def pickLoop {α : Type*} (n : ℕ) :
    List α → List α × List (List α) → List α × List (List α)
  | [], st => st
  | x :: items, (chosen, out) =>
    let chosen := chosen ++ [x]
    let st :=
      if chosen.length = n then (chosen, out ++ [chosen]) else pickLoop n items (chosen, out)
    pickLoop n items (st.1.dropLast, st.2)

/-- `nCombinations` by `pick`. -/
def pickCombinations {α : Type*} (items : List α) (n : ℕ) : List (List α) :=
  if n = 0 then [[]] else if items.length < n then [] else (pickLoop n items ([], [])).2

section Combinations

variable {α : Type*} {k n : ℕ}

theorem choose_le_choose_of_le_half {i j : ℕ} (hij : i ≤ j) (hj : j ≤ k / 2) :
    k.choose i ≤ k.choose j := by
  induction j, hij using Nat.le_induction with
  | base => rfl
  | succ j _ ih => exact (ih (by omega)).trans (Nat.choose_le_succ_of_lt_half_left (by omega))

/-- Up to the middle the numbers grow, so one that is above the cap stays there. -/
theorem chooseLoop_spec (rounds : ℕ) {i : ℕ} (hhalf : i + rounds ≤ k / 2)
    (hcap : k.choose i ≤ maxAtleastCombinations) :
    chooseLoop k rounds i (k.choose i) =
        min (k.choose (i + rounds)) (maxAtleastCombinations + 1) ∧
      ∀ d ∈ chooseDivisions k rounds i (k.choose i), d.2 ∣ d.1 := by
  induction rounds generalizing i with
  | zero => exact ⟨(min_eq_left (Nat.le_succ_of_le hcap)).symm, by simp [chooseDivisions]⟩
  | succ rounds ih =>
    have hdvd : i + 1 ∣ k.choose i * (k - i) := by
      rw [← Nat.choose_succ_right_eq]
      exact Nat.dvd_mul_left _ _
    have hnext : k.choose i * (k - i) / (i + 1) = k.choose (i + 1) := by
      rw [← Nat.choose_succ_right_eq, Nat.mul_div_cancel _ i.succ_pos]
    rw [chooseLoop, chooseDivisions, hnext, List.forall_mem_cons]
    split_ifs with hover
    · have hgrow : k.choose (i + 1) ≤ k.choose (i + (rounds + 1)) :=
        choose_le_choose_of_le_half (by omega) hhalf
      exact ⟨(min_eq_right (hover.trans_le hgrow)).symm, hdvd, by simp⟩
    · obtain ⟨hloop, hdivs⟩ := ih (i := i + 1) (by omega) (not_lt.mp hover)
      rw [Nat.add_right_comm] at hloop
      exact ⟨hloop, hdvd, hdivs⟩

/-- The prefix comes back as it was, and the output gains what begins with it. -/
theorem pickLoop_eq (items chosen : List α) (out : List (List α)) {m : ℕ}
    (hn : n = chosen.length + (m + 1)) :
    pickLoop n items (chosen, out) =
      (chosen, out ++ (nCombinations items (m + 1)).map (chosen ++ ·)) := by
  induction items generalizing chosen out m with
  | nil => simp [pickLoop, nCombinations]
  | cons x items ih =>
    have hinner : (if (chosen ++ [x]).length = n then (chosen ++ [x], out ++ [chosen ++ [x]])
        else pickLoop n items (chosen ++ [x], out)) =
        (chosen ++ [x], out ++ (nCombinations items m).map (chosen ++ [x] ++ ·)) := by
      cases m with
      | zero => simp [hn, nCombinations]
      | succ m =>
        have hnext : n = (chosen ++ [x]).length + (m + 1) := by
          rw [hn, List.length_append, List.length_singleton]
          omega
        rw [if_neg (by omega), ih _ out hnext]
    simp only [pickLoop, hinner, List.dropLast_concat, ih _ _ hn]
    simp [nCombinations, Function.comp_def]

theorem pickCombinations_eq (items : List α) :
    pickCombinations items n = nCombinations items n := by
  rw [pickCombinations]
  split_ifs with hn hlong
  · rw [hn, nCombinations]
  · refine (List.eq_nil_iff_forall_not_mem.mpr fun c hc => ?_).symm
    obtain ⟨hsub, hlength⟩ := mem_nCombinations.mp hc
    exact absurd hsub.length_le (by omega)
  · obtain ⟨m, rfl⟩ := Nat.exists_eq_succ_of_ne_zero hn
    simp [pickLoop_eq items [] [] (Nat.zero_add (m + 1)).symm]

theorem nCombinations_map {β : Type*} (f : α → β) (items : List α) :
    nCombinations (items.map f) n = (nCombinations items n).map (List.map f) := by
  induction items generalizing n with
  | nil => cases n <;> rfl
  | cons x items ih => cases n <;> simp [nCombinations, ih, Function.comp_def]

theorem pairwise_nCombinations {ps : List ℕ} (h : ps.Pairwise (· < ·)) :
    (nCombinations ps n).Pairwise (· < ·) := by
  induction ps generalizing n with
  | nil => cases n <;> simp [nCombinations]
  | cons p ps ih =>
    cases n with
    | zero => simp [nCombinations]
    | succ n =>
      obtain ⟨hfirst, hps⟩ := List.pairwise_cons.mp h
      rw [nCombinations, List.pairwise_append]
      refine ⟨List.pairwise_map.mpr ((ih hps).imp ?_), ih hps, ?_⟩
      · exact fun hlt => List.cons_lt_cons_iff.mpr (.inr ⟨rfl, hlt⟩)
      · intro c hc d hd
        obtain ⟨c, -, rfl⟩ := List.mem_map.mp hc
        obtain ⟨hsub, hlength⟩ := mem_nCombinations.mp hd
        cases d with
        | nil => cases hlength
        | cons q d =>
          exact List.cons_lt_cons_iff.mpr (.inl (hfirst q (hsub.subset List.mem_cons_self)))

end Combinations

/-- `chooseCount` is the binomial coefficient, cut off above the cap, and no division on the way
leaves a remainder. `nCombinations` gives the combinations by their positions: every choice of `n`
positions once, in lexicographic order. -/
theorem combinations_counted (k n : ℕ) :
    chooseCount k n = min (k.choose n) (maxAtleastCombinations + 1) ∧
    (∀ d ∈ chooseDivisions k (min n (k - n)) 0 1, d.2 ∣ d.1) ∧
    ∀ {α : Type*} (items : List α), ∃ positions : List (List ℕ),
      positions.Pairwise (· < ·) ∧
      (∀ ps, ps ∈ positions ↔ ps.Sublist (List.range items.length) ∧ ps.length = n) ∧
      (pickCombinations items n).map (List.map some) = positions.map (List.map (items[·]?)) := by
  have hloop := chooseLoop_spec (k := k) (min n (k - n)) (i := 0) (by omega)
    (by simp [maxAtleastCombinations])
  rw [Nat.choose_zero_right, Nat.zero_add] at hloop
  refine ⟨?_, hloop.2, fun items => ⟨nCombinations (List.range items.length) n, ?_, ?_, ?_⟩⟩
  · rw [chooseCount]
    split_ifs with hlt hone
    · rw [Nat.choose_eq_zero_of_lt hlt, Nat.zero_min]
    · rcases hone with rfl | rfl <;> simp [maxAtleastCombinations]
    · rw [hloop.1]
      -- The smaller of `n` and `k - n` gives the same coefficient.
      rcases min_choice n (k - n) with hmin | hmin
      · rw [hmin]
      · rw [hmin, Nat.choose_symm (not_lt.mp hlt)]
  · exact pairwise_nCombinations List.pairwise_lt_range
  · exact fun ps => mem_nCombinations
  · rw [pickCombinations_eq, ← nCombinations_map, ← nCombinations_map]
    refine congrArg (nCombinations · n) (List.ext_getElem (by simp) fun i h _ => ?_)
    simp at h ⊢

end Minister.Policy

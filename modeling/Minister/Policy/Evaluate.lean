import Mathlib.Data.List.NodupEquivFin
import Mathlib.Order.Bounds.Defs
import Minister.Codec.Double
import Minister.Matching.Kuhn

/-!
# Policies

The requirement trees a relying party sends with a consent request, and `evaluate`, which
decides whether a set of badges meets one (`lib/oidc-policy.ts`). An `atLeast` node is met
by distinct badges: the branches that count are matched with badges, one badge each, and a
branch counts only through a single badge that meets it alone.

The product in the age check is rounded to a double. The instants are whole seconds, so that their
difference is exact.
-/

namespace Minister.Policy

open Matching

inductive PolicyAttrValue
  | string (s : String)
  | number (q : ℚ)
  | boolean (b : Bool)
  deriving DecidableEq, Repr

/-- The requirement of one badge. A missing `where` is an empty one. -/
structure BadgeLeaf where
  type : String
  whereAttrs : List (String × PolicyAttrValue) := []
  maxAgeDays : Option ℚ := none
  deriving DecidableEq, Repr

inductive PolicyNode
  | badge (leaf : BadgeLeaf)
  | allOf (nodes : List PolicyNode)
  | anyOf (nodes : List PolicyNode)
  | atLeast (n : ℕ) (nodes : List PolicyNode)

/-- A badge as selection and evaluation see it. -/
structure UserBadge where
  id : String
  type : String
  attributes : List (String × PolicyAttrValue) := []
  issuedAt : ℚ := 0
  deriving DecidableEq, Repr

/-- `SECONDS_PER_DAY`. -/
def secondsPerDay : ℚ := 86400

def badgeSatisfiesLeaf (leaf : BadgeLeaf) (candidate : UserBadge) (now : ℚ) : Bool :=
  candidate.type = leaf.type &&
    (match leaf.maxAgeDays with
      | none => true
      | some days => ¬Codec.nearest (days * secondsPerDay) < now - candidate.issuedAt) &&
    leaf.whereAttrs.all fun kv => candidate.attributes.lookup kv.1 = some kv.2

def leafSatisfied (leaf : BadgeLeaf) (badges : List UserBadge) (now : ℚ) : Bool :=
  badges.any fun candidate => badgeSatisfiesLeaf leaf candidate now

/-- The main loop of `maxDistinctBranchMatch`, given the badges that alone meet each branch. -/
def matchBranches (adjacency : List (List ℕ)) (badgeCount : ℕ) : ℕ :=
  kuhn (fun branch => adjacency.getD branch []) badgeCount (List.range adjacency.length)

mutual

/-- Whether the badges meet the policy. -/
def evaluate (badges : List UserBadge) (now : ℚ) : PolicyNode → Bool
  | .badge leaf => leafSatisfied leaf badges now
  | .allOf nodes => evaluateEvery badges now nodes
  | .anyOf nodes => evaluateSome badges now nodes
  | .atLeast n nodes =>
    if n ≤ 0 then true else n ≤ matchBranches (adjacency badges now nodes) badges.length

/-- `nodes.every((node) => evaluate(node, badges, now))`. -/
def evaluateEvery (badges : List UserBadge) (now : ℚ) : List PolicyNode → Bool
  | [] => true
  | node :: nodes => evaluate badges now node && evaluateEvery badges now nodes

/-- `nodes.some((node) => evaluate(node, badges, now))`. -/
def evaluateSome (badges : List UserBadge) (now : ℚ) : List PolicyNode → Bool
  | [] => false
  | node :: nodes => evaluate badges now node || evaluateSome badges now nodes

/-- For each branch, the indices of the badges that alone meet it. -/
def adjacency (badges : List UserBadge) (now : ℚ) : List PolicyNode → List (List ℕ)
  | [] => []
  | branch :: branches =>
    (badges.zipIdx.filter fun p => evaluate [p.1] now branch).map Prod.snd ::
      adjacency badges now branches

end

def maxDistinctBranchMatch (branches : List PolicyNode) (badges : List UserBadge) (now : ℚ) : ℕ :=
  matchBranches (adjacency badges now branches) badges.length

/-- Induction over trees: a node with children may assume the statement for each of them. -/
@[elab_as_elim, induction_eliminator]
theorem PolicyNode.induct {motive : PolicyNode → Prop} (badge : ∀ leaf, motive (.badge leaf))
    (allOf : ∀ nodes, (∀ c ∈ nodes, motive c) → motive (.allOf nodes))
    (anyOf : ∀ nodes, (∀ c ∈ nodes, motive c) → motive (.anyOf nodes))
    (atLeast : ∀ n nodes, (∀ c ∈ nodes, motive c) → motive (.atLeast n nodes))
    (p : PolicyNode) : motive p := by
  have hnil : ∀ c ∈ ([] : List PolicyNode), motive c := fun c hc => absurd hc List.not_mem_nil
  have hcons (node : PolicyNode) (nodes : List PolicyNode) (hnode : motive node)
      (hnodes : ∀ c ∈ nodes, motive c) : ∀ c ∈ node :: nodes, motive c := by
    intro c hc
    rcases List.mem_cons.mp hc with rfl | hc
    · exact hnode
    · exact hnodes c hc
  exact @PolicyNode.rec motive (fun nodes => ∀ c ∈ nodes, motive c) badge allOf anyOf atLeast
    hnil hcons p

/-! ### The nodes -/

section Nodes

variable {badges badges' : List UserBadge} {now : ℚ} {nodes : List PolicyNode} {n : ℕ}

theorem evaluate_badge (leaf : BadgeLeaf) :
    evaluate badges now (.badge leaf) = true ↔
      ∃ b ∈ badges, badgeSatisfiesLeaf leaf b now = true := by
  rw [evaluate, leafSatisfied, List.any_eq_true]

theorem evaluate_allOf :
    evaluate badges now (.allOf nodes) = true ↔ ∀ c ∈ nodes, evaluate badges now c = true := by
  rw [evaluate]
  induction nodes with
  | nil => simp [evaluateEvery]
  | cons node nodes ih => rw [evaluateEvery, Bool.and_eq_true, ih, List.forall_mem_cons]

theorem evaluate_anyOf :
    evaluate badges now (.anyOf nodes) = true ↔ ∃ c ∈ nodes, evaluate badges now c = true := by
  rw [evaluate]
  induction nodes with
  | nil => simp [evaluateSome]
  | cons node nodes ih => simp only [evaluateSome, Bool.or_eq_true, ih, List.exists_mem_cons_iff]

theorem length_adjacency : (adjacency badges now nodes).length = nodes.length := by
  induction nodes with
  | nil => rfl
  | cons node nodes ih => rw [adjacency, List.length_cons, ih, List.length_cons]

/-- An index is listed for a branch if the badge there meets the branch alone. -/
theorem mem_adjacency {i r : ℕ} :
    r ∈ (adjacency badges now nodes).getD i [] ↔
      ∃ branch b, nodes[i]? = some branch ∧ badges[r]? = some b ∧
        evaluate [b] now branch = true := by
  induction nodes generalizing i with
  | nil => simp [adjacency]
  | cons node nodes ih =>
    rw [adjacency]
    cases i with
    | zero =>
      rw [List.getD_cons_zero, List.getElem?_cons_zero]
      simp only [List.mem_map, List.mem_filter, Prod.exists, exists_eq_right,
        List.mem_zipIdx_iff_getElem?, Option.some.injEq, exists_and_left, exists_eq_left']
    | succ i =>
      rw [List.getD_cons_succ, List.getElem?_cons_succ]
      exact ih

/-- The loop finds a number of branches exactly if so many can each have a badge of its own
that meets it alone. -/
theorem le_maxDistinctBranchMatch_iff :
    n ≤ maxDistinctBranchMatch nodes badges now ↔
      ∃ M : List (ℕ × ℕ), M.length = n ∧ (M.map Prod.fst).Nodup ∧ (M.map Prod.snd).Nodup ∧
        ∀ q ∈ M, ∃ branch b, nodes[q.1]? = some branch ∧ badges[q.2]? = some b ∧
          evaluate [b] now branch = true := by
  have hadj : ∀ i, ∀ r ∈ (adjacency badges now nodes).getD i [],
      r ∈ Finset.range badges.length := by
    intro i r hr
    obtain ⟨branch, b, -, hb, -⟩ := mem_adjacency.mp hr
    exact Finset.mem_range.mpr (List.getElem?_eq_some_iff.mp hb).1
  have hkuhn : n ≤ maxDistinctBranchMatch nodes badges now ↔ _ :=
    le_kuhn_iff hadj (Finset.card_range badges.length).le List.nodup_range
  rw [hkuhn]
  constructor
  · rintro ⟨M, hM, hlength⟩
    exact ⟨M, hlength, hM.left_nodup, hM.right_nodup, fun q hq => mem_adjacency.mp (hM.edge q hq).2⟩
  · rintro ⟨M, hlength, hleft, hright, hedge⟩
    refine ⟨M, ⟨hleft, hright, fun q hq => ⟨?_, mem_adjacency.mpr (hedge q hq)⟩⟩, hlength⟩
    obtain ⟨branch, b, hbranch, -, -⟩ := hedge q hq
    rw [List.mem_range, length_adjacency]
    exact (List.getElem?_eq_some_iff.mp hbranch).1

/-- The loop finds the largest number of branches that can be given distinct badges, each of
which meets its branch alone. A choice is a list of pairs of a branch and a badge, both given
by their index. -/
theorem maxDistinctBranchMatch_isGreatest (branches : List PolicyNode) (badges : List UserBadge)
    (now : ℚ) :
    IsGreatest {k | ∃ M : List (ℕ × ℕ),
        M.length = k ∧ (M.map Prod.fst).Nodup ∧ (M.map Prod.snd).Nodup ∧
          ∀ q ∈ M, ∃ branch b, branches[q.1]? = some branch ∧ badges[q.2]? = some b ∧
            evaluate [b] now branch = true}
      (maxDistinctBranchMatch branches badges now) :=
  ⟨le_maxDistinctBranchMatch_iff.mp le_rfl, fun _ h => le_maxDistinctBranchMatch_iff.mpr h⟩

/-- An `atLeast` node asks for as many branches as its threshold, each with a badge of its
own that meets it alone. -/
theorem evaluate_atLeast_iff :
    evaluate badges now (.atLeast n nodes) = true ↔
      ∃ M : List (ℕ × ℕ), M.length = n ∧ (M.map Prod.fst).Nodup ∧ (M.map Prod.snd).Nodup ∧
        ∀ q ∈ M, ∃ branch b, nodes[q.1]? = some branch ∧ badges[q.2]? = some b ∧
          evaluate [b] now branch = true := by
  rw [← le_maxDistinctBranchMatch_iff, evaluate]
  split_ifs with hn
  · simp [Nat.le_zero.mp hn]
  · exact decide_eq_true_iff

/-! ### More badges, in another order -/

/-- The badges of one list are found in the other, each at an index of its own. -/
def Renumbered (badges badges' : List UserBadge) : Prop :=
  ∃ f : ℕ → ℕ, f.Injective ∧ ∀ i, badges[i]? = badges'[f i]?

theorem renumbered_of_sublist (h : badges.Sublist badges') : Renumbered badges badges' := by
  obtain ⟨f, hf⟩ := List.sublist_iff_exists_orderEmbedding_getElem?_eq.mp h
  exact ⟨f, f.injective, hf⟩

theorem renumbered_of_perm (h : badges.Perm badges') : Renumbered badges badges' := by
  induction h with
  | nil => exact ⟨id, Function.injective_id, fun i => rfl⟩
  | cons b _ ih =>
    obtain ⟨f, hf, hget⟩ := ih
    refine ⟨fun i => Nat.casesOn i 0 fun i => f i + 1, ?_, ?_⟩
    · rintro (_ | i) (_ | j) hij
      · rfl
      · exact absurd hij (Nat.succ_ne_zero _).symm
      · exact absurd hij (Nat.succ_ne_zero _)
      · rw [hf (Nat.succ.inj hij)]
    · rintro (_ | i)
      · rfl
      · exact hget i
  | swap b c l =>
    refine ⟨Equiv.swap 0 1, (Equiv.swap 0 1).injective, ?_⟩
    rintro (_ | _ | i)
    · rfl
    · rfl
    · rw [Equiv.swap_apply_of_ne_of_ne (by omega) (by omega)]
      rfl
  | trans _ _ ih₁ ih₂ =>
    obtain ⟨f, hf, hget⟩ := ih₁
    obtain ⟨g, hg, hget'⟩ := ih₂
    exact ⟨g ∘ f, hg.comp hf, fun i => (hget i).trans (hget' (f i))⟩

/-- Only the badges matter to a policy, and neither where they are nor what else there is. -/
theorem evaluate_of_renumbered {p : PolicyNode} (hren : Renumbered badges badges')
    (h : evaluate badges now p = true) : evaluate badges' now p = true := by
  obtain ⟨f, hf, hget⟩ := hren
  induction p with
  | badge leaf =>
    obtain ⟨b, hb, hleaf⟩ := (evaluate_badge leaf).mp h
    obtain ⟨i, hi⟩ := List.mem_iff_getElem?.mp hb
    exact (evaluate_badge leaf).mpr ⟨b, List.mem_of_getElem? ((hget i).symm.trans hi), hleaf⟩
  | allOf nodes ih =>
    exact evaluate_allOf.mpr fun c hc => ih c hc (evaluate_allOf.mp h c hc)
  | anyOf nodes ih =>
    obtain ⟨c, hc, hmet⟩ := evaluate_anyOf.mp h
    exact evaluate_anyOf.mpr ⟨c, hc, ih c hc hmet⟩
  | atLeast n nodes ih =>
    obtain ⟨M, hlength, hleft, hright, hedge⟩ := evaluate_atLeast_iff.mp h
    -- The matching moves along: no badge is taken twice, since no index is.
    refine evaluate_atLeast_iff.mpr ⟨M.map fun q => (q.1, f q.2), ?_, ?_, ?_, ?_⟩
    · rw [List.length_map, hlength]
    · rw [List.map_map]
      exact hleft
    · have hmap : (M.map fun q => (q.1, f q.2)).map Prod.snd = (M.map Prod.snd).map f := by
        rw [List.map_map, List.map_map]
        rfl
      rw [hmap]
      exact hright.map hf
    · intro q hq
      obtain ⟨q₀, hq₀, rfl⟩ := List.mem_map.mp hq
      obtain ⟨branch, b, hbranch, hb, hmet⟩ := hedge q₀ hq₀
      exact ⟨branch, b, hbranch, (hget q₀.2).symm.trans hb, hmet⟩

/-- A policy that is met stays met when badges are added. -/
theorem evaluate_mono {p : PolicyNode} (hsub : badges.Sublist badges')
    (h : evaluate badges now p = true) : evaluate badges' now p = true :=
  evaluate_of_renumbered (renumbered_of_sublist hsub) h

/-- A policy that is met stays met when badges are added and when they come in another
order. -/
theorem evaluate_of_subperm (policy : PolicyNode) (now : ℚ) {badges badges' : List UserBadge}
    (hsub : badges.Subperm badges') (h : evaluate badges now policy = true) :
    evaluate badges' now policy = true := by
  obtain ⟨l, hperm, hl⟩ := hsub
  exact evaluate_mono hl (evaluate_of_renumbered (renumbered_of_perm hperm.symm) h)

/-- Two badges of one type meet a threshold of two; so they do swapped and with a third. -/
theorem evaluate_of_subperm_swapped :
    evaluate [⟨"c", "t", [], 0⟩, ⟨"b", "t", [], 0⟩, ⟨"a", "t", [], 0⟩] 0
      (.atLeast 2 [.badge { type := "t" }, .badge { type := "t" }]) = true :=
  evaluate_of_subperm _ 0
    ⟨[⟨"b", "t", [], 0⟩, ⟨"a", "t", [], 0⟩], List.Perm.swap _ _ _,
      List.sublist_cons_self _ _⟩ (by decide +kernel)

end Nodes

end Minister.Policy

import Mathlib.Algebra.Order.BigOperators.Group.List
import Mathlib.Algebra.Order.Ring.Nat
import Minister.Policy.Evaluate

/-!
# The cost of evaluating a policy

`evaluate` again, now with the number of times it tests one badge against one leaf, that is,
calls `badgeSatisfiesLeaf`. The evaluation stops where JavaScript's `some` and `every` stop,
and an `atLeast` node evaluates each branch once for each badge.

An `atLeast` node below another is evaluated on single badges, so nesting costs nothing: on
one badge a branch makes no more tests than it has leaves.
-/

namespace Minister.Policy

/-- `leafSatisfied`, with the tests it makes up to the first badge that passes. -/
def leafTests (leaf : BadgeLeaf) (now : ℚ) : List UserBadge → Bool × ℕ
  | [] => (false, 0)
  | candidate :: rest =>
    if badgeSatisfiesLeaf leaf candidate now then (true, 1)
    else ((leafTests leaf now rest).1, (leafTests leaf now rest).2 + 1)

mutual

/-- `evaluate`, with the tests it makes. -/
def evaluateTests (badges : List UserBadge) (now : ℚ) : PolicyNode → Bool × ℕ
  | .badge leaf => leafTests leaf now badges
  | .allOf nodes => everyTests badges now nodes
  | .anyOf nodes => someTests badges now nodes
  | .atLeast n nodes =>
    -- The matching itself tests nothing.
    if n ≤ 0 then (true, 0)
    else (n ≤ matchBranches (adjacencyTests badges now nodes).1 badges.length,
      (adjacencyTests badges now nodes).2)

def everyTests (badges : List UserBadge) (now : ℚ) : List PolicyNode → Bool × ℕ
  | [] => (true, 0)
  | node :: nodes =>
    if (evaluateTests badges now node).1 then
      ((everyTests badges now nodes).1,
        (evaluateTests badges now node).2 + (everyTests badges now nodes).2)
    else (false, (evaluateTests badges now node).2)

def someTests (badges : List UserBadge) (now : ℚ) : List PolicyNode → Bool × ℕ
  | [] => (false, 0)
  | node :: nodes =>
    if (evaluateTests badges now node).1 then (true, (evaluateTests badges now node).2)
    else ((someTests badges now nodes).1,
      (evaluateTests badges now node).2 + (someTests badges now nodes).2)

def adjacencyTests (badges : List UserBadge) (now : ℚ) : List PolicyNode → List (List ℕ) × ℕ
  | [] => ([], 0)
  | branch :: branches =>
    ((badges.zipIdx.filter fun p => (evaluateTests [p.1] now branch).1).map Prod.snd ::
        (adjacencyTests badges now branches).1,
      (badges.map fun b => (evaluateTests [b] now branch).2).sum +
        (adjacencyTests badges now branches).2)

end

mutual

def PolicyNode.leaves : PolicyNode → ℕ
  | .badge _ => 1
  | .allOf nodes | .anyOf nodes | .atLeast _ nodes => leavesOf nodes

def leavesOf : List PolicyNode → ℕ
  | [] => 0
  | node :: nodes => node.leaves + leavesOf nodes

end

/-! ### One bound for every node -/

section Bound

variable {badges : List UserBadge} {now : ℚ} {nodes : List PolicyNode}

/-- The evaluation of a node that counts its tests reaches the verdict of the evaluation that
does not, and stays within the bound. -/
structure Within (badges : List UserBadge) (now : ℚ) (p : PolicyNode) : Prop where
  verdict : (evaluateTests badges now p).1 = evaluate badges now p
  tests : (evaluateTests badges now p).2 ≤ p.leaves * badges.length

theorem leafTests_spec (badges : List UserBadge) (now : ℚ) (leaf : BadgeLeaf) :
    (leafTests leaf now badges).1 = leafSatisfied leaf badges now ∧
      (leafTests leaf now badges).2 ≤ badges.length := by
  induction badges with
  | nil => exact ⟨rfl, le_rfl⟩
  | cons candidate rest ih =>
    rw [leafTests, leafSatisfied, List.any_cons, List.length_cons]
    split_ifs with hmet
    · exact ⟨by rw [hmet, Bool.true_or], Nat.le_add_left 1 _⟩
    · exact ⟨by rw [Bool.eq_false_iff.mpr hmet, Bool.false_or]; exact ih.1,
        Nat.succ_le_succ ih.2⟩

/-- `every` stops at the first node that is not met, `some` at the first that is; both pay
for the nodes up to there. -/
theorem childTests_spec (badges : List UserBadge) (h : ∀ c ∈ nodes, Within badges now c) :
    ((everyTests badges now nodes).1 = evaluateEvery badges now nodes ∧
        (everyTests badges now nodes).2 ≤ leavesOf nodes * badges.length) ∧
      (someTests badges now nodes).1 = evaluateSome badges now nodes ∧
        (someTests badges now nodes).2 ≤ leavesOf nodes * badges.length := by
  induction nodes with
  | nil => exact ⟨⟨rfl, Nat.zero_le _⟩, rfl, Nat.zero_le _⟩
  | cons node nodes ih =>
    have hnode := h node List.mem_cons_self
    obtain ⟨⟨hevery, hall⟩, hsome, hany⟩ := ih fun c hc => h c (List.mem_cons_of_mem node hc)
    rw [everyTests, evaluateEvery, someTests, evaluateSome, leavesOf, Nat.add_mul,
      ← hnode.verdict]
    have hfirst := hnode.tests.trans (Nat.le_add_right _ (leavesOf nodes * badges.length))
    split_ifs with hmet
    · exact ⟨⟨by rw [hmet, Bool.true_and, hevery], Nat.add_le_add hnode.tests hall⟩,
        by rw [hmet, Bool.true_or], hfirst⟩
    · rw [Bool.eq_false_iff.mpr hmet]
      exact ⟨⟨by rw [Bool.false_and], hfirst⟩, by rw [Bool.false_or, hsome],
        Nat.add_le_add hnode.tests hany⟩

/-- The branches are evaluated on one badge at a time, so the badges count once. -/
theorem adjacencyTests_spec (badges : List UserBadge) (h : ∀ c ∈ nodes, ∀ b, Within [b] now c) :
    (adjacencyTests badges now nodes).1 = adjacency badges now nodes ∧
      (adjacencyTests badges now nodes).2 ≤ leavesOf nodes * badges.length := by
  induction nodes with
  | nil => exact ⟨rfl, Nat.zero_le _⟩
  | cons branch branches ih =>
    have hbranch := h branch List.mem_cons_self
    obtain ⟨hrows, htests⟩ := ih fun c hc => h c (List.mem_cons_of_mem branch hc)
    have hsum : (badges.map fun b => (evaluateTests [b] now branch).2).sum ≤
        branch.leaves * badges.length := by
      have hle := List.sum_le_card_nsmul (badges.map fun b => (evaluateTests [b] now branch).2)
        branch.leaves fun k hk => by
          obtain ⟨b, -, rfl⟩ := List.mem_map.mp hk
          simpa using (hbranch b).tests
      rwa [List.length_map, Nat.nsmul_eq_mul, Nat.mul_comm] at hle
    rw [adjacencyTests, adjacency, leavesOf, Nat.add_mul]
    refine ⟨?_, Nat.add_le_add hsum htests⟩
    simp only [hrows, (hbranch _).verdict]

theorem within (p : PolicyNode) : Within badges now p := by
  induction p generalizing badges with
  | badge leaf =>
    obtain ⟨hverdict, htests⟩ := leafTests_spec badges now leaf
    refine ⟨?_, ?_⟩
    · rw [evaluateTests, evaluate, hverdict]
    · rw [evaluateTests, PolicyNode.leaves, Nat.one_mul]
      exact htests
  | allOf nodes ih =>
    obtain ⟨⟨hverdict, htests⟩, -⟩ := childTests_spec badges fun c hc => ih c hc
    refine ⟨?_, ?_⟩
    · rw [evaluateTests, evaluate, hverdict]
    · rw [evaluateTests, PolicyNode.leaves]
      exact htests
  | anyOf nodes ih =>
    obtain ⟨-, hverdict, htests⟩ := childTests_spec badges fun c hc => ih c hc
    refine ⟨?_, ?_⟩
    · rw [evaluateTests, evaluate, hverdict]
    · rw [evaluateTests, PolicyNode.leaves]
      exact htests
  | atLeast n nodes ih =>
    obtain ⟨hrows, htests⟩ := adjacencyTests_spec badges fun c hc b => ih c hc
    refine ⟨?_, ?_⟩
    · rw [evaluateTests, evaluate, hrows]
      split_ifs
      · rfl
      · rfl
    · rw [evaluateTests, PolicyNode.leaves]
      split_ifs
      · exact Nat.zero_le _
      · exact htests

end Bound

/-- Evaluating a policy tests each badge against each leaf at most once, however the tree is
nested. -/
theorem evaluateTests_le (policy : PolicyNode) (badges : List UserBadge) (now : ℚ) :
    (evaluateTests badges now policy).1 = evaluate badges now policy ∧
      (evaluateTests badges now policy).2 ≤ policy.leaves * badges.length :=
  ⟨(within policy).verdict, (within policy).tests⟩

end Minister.Policy

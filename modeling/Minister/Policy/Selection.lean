import Mathlib.Data.List.Sort
import Minister.Policy.Evaluate

/-!
# Choosing badges for a policy

`selectMinimalAnonymitySet` of `lib/oidc-policy.ts` and `minimizeToPolicy` of
`server/oidc-consent-minimize.ts`. A set of badges is chosen for a policy from the bottom up:
a leaf offers the badges that meet it, and a node with children puts together the best
offers of its children. Offers are ranked by how many people hold badges of the types they
disclose, the rarest type first, and only the first few are kept.

JavaScript sorts strings by UTF-16 code units, and its sort is stable. A `Set` keeps the
order in which its elements were added.
-/

namespace Minister.Policy

/-! ### Strings and sets -/

/-- The code units of a string. -/
def utf16 (s : String) : List ℕ :=
  s.toList.flatMap fun c =>
    if c.toNat < 0x10000 then [c.toNat]
    else [0xD800 + (c.toNat - 0x10000) / 0x400, 0xDC00 + (c.toNat - 0x10000) % 0x400]

/-- `a < b` for strings. -/
def stringLt (a b : String) : Bool := utf16 a < utf16 b

/-- `[...xs].sort().join("\0")`. -/
def sortedKey (xs : List String) : String :=
  String.intercalate "\x00" (xs.insertionSort fun a b => stringLt b a = false)

/-- `Set.add`. -/
def setAdd (xs : List String) (x : String) : List String := if x ∈ xs then xs else xs ++ [x]

/-! ### Ranking -/

structure Selection where
  badgeIds : List String
  /-- The distinct types of the badges. -/
  types : List String
  deriving DecidableEq, Repr

/-- The number of holders of each badge type. -/
abbrev HolderCounts := String → Option ℚ

def anonymityVector (types : List String) (holderCounts : HolderCounts) : List ℚ :=
  (types.map fun t => (holderCounts t).getD 0).insertionSort (· ≤ ·)

/-- The first difference decides, in favour of the larger count. A vector that has ended
counts as infinite. -/
def compareVectors : List ℚ → List ℚ → Ordering
  | [], [] => .eq
  | [], _ :: _ => .lt
  | _ :: _, [] => .gt
  | a :: as, b :: bs => if a ≠ b then (if b < a then .lt else .gt) else compareVectors as bs

/-- Less is better: larger anonymity, then fewer badges, then the order of the types. -/
def compareSelections (holderCounts : HolderCounts) (a b : Selection) : Ordering :=
  match compareVectors (anonymityVector a.types holderCounts)
      (anonymityVector b.types holderCounts) with
  | .lt => .lt
  | .gt => .gt
  | .eq =>
    if a.badgeIds.length ≠ b.badgeIds.length then
      (if a.badgeIds.length < b.badgeIds.length then .lt else .gt)
    else if stringLt (sortedKey a.types) (sortedKey b.types) then .lt
    else if stringLt (sortedKey b.types) (sortedKey a.types) then .gt
    else .eq

/-- `selections.sort((a, b) => compareSelections(a, b, holderCounts))`. -/
def sortSelections (holderCounts : HolderCounts) (selections : List Selection) : List Selection :=
  selections.insertionSort fun a b => compareSelections holderCounts a b ≠ .gt

def bestOf (holderCounts : HolderCounts) : List Selection → Option Selection
  | [] => none
  | first :: rest =>
    some (rest.foldl
      (fun best s => if compareSelections holderCounts s best = .lt then s else best) first)

def mergeSelections (parts : List Selection) : Selection where
  badgeIds := parts.foldl (fun ids part => part.badgeIds.foldl setAdd ids) []
  types := parts.foldl (fun types part => part.types.foldl setAdd types) []

/-- Keep the first selection of each set of badges; `seen` are the sets so far. -/
def dedupeSelections (seen : List String) : List Selection → List Selection
  | [] => []
  | sel :: rest =>
    if sortedKey sel.badgeIds ∈ seen then dedupeSelections seen rest
    else sel :: dedupeSelections (sortedKey sel.badgeIds :: seen) rest

/-- `MAX_ALTERNATIVES`. -/
def maxAlternatives : ℕ := 16

/-- `MAX_ATLEAST_COMBINATIONS`. -/
def maxAtleastCombinations : ℕ := 500

def rankAndCap (holderCounts : HolderCounts) (selections : List Selection) : List Selection :=
  (dedupeSelections [] (sortSelections holderCounts selections)).take maxAlternatives

/-! ### Combinations -/

/-- The loop of `chooseCount`, with the rounds left, the round and the result so far. -/
def chooseLoop (k : ℕ) : ℕ → ℕ → ℕ → ℕ
  | 0, _, result => result
  | rounds + 1, i, result =>
    if maxAtleastCombinations < result * (k - i) / (i + 1) then maxAtleastCombinations + 1
    else chooseLoop k rounds (i + 1) (result * (k - i) / (i + 1))

/-- The number of combinations, cut off above the cap. -/
def chooseCount (k n : ℕ) : ℕ :=
  if k < n then 0 else if n = 0 ∨ n = k then 1 else chooseLoop k (min n (k - n)) 0 1

/-- The combinations of `n` items in the order of their indices. -/
def nCombinations {α : Type*} : List α → ℕ → List (List α)
  | _, 0 => [[]]
  | [], _ + 1 => []
  | x :: xs, n + 1 => (nCombinations xs n).map (x :: ·) ++ nCombinations xs (n + 1)

/-! ### Offers -/

/-- All of the values, if none is missing. -/
def allSome {α : Type*} : List (Option α) → Option (List α)
  | [] => some []
  | none :: _ => none
  | some x :: xs => (allSome xs).map (x :: ·)

/-- The best of the children's offers, a few more than are needed. -/
def shortlist (holderCounts : HolderCounts) (n : ℕ) (childBests : List Selection) :
    List Selection :=
  (sortSelections holderCounts childBests).take (min childBests.length (n + 4))

/-- The offers of an `atLeast` node, given the best offers of the children that have one. -/
def combine (holderCounts : HolderCounts) (n : ℕ) (childBests : List Selection) :
    List Selection :=
  if n ≤ 0 then [⟨[], []⟩]
  else if childBests.length < n then []
  else if maxAtleastCombinations < chooseCount (shortlist holderCounts n childBests).length n then
    [mergeSelections ((sortSelections holderCounts childBests).take n)]
  else
    rankAndCap holderCounts
      ((nCombinations (shortlist holderCounts n childBests) n).map mergeSelections)

section Offers

variable (badges : List UserBadge) (holderCounts : HolderCounts) (now : ℚ)

mutual

/-- The selections for a node, best first. There is none if the badges do not meet it. -/
def selectionsFor : PolicyNode → List Selection
  | .badge leaf =>
    rankAndCap holderCounts
      ((badges.filter fun b => badgeSatisfiesLeaf leaf b now).map fun b => ⟨[b.id], [b.type]⟩)
  | .allOf nodes =>
    match allSome (bestsFor nodes) with
    | none => []
    | some childBests => [mergeSelections childBests]
  | .anyOf nodes => rankAndCap holderCounts (bestsFor nodes).reduceOption
  | .atLeast n nodes => combine holderCounts n (bestsFor nodes).reduceOption

/-- The best selection for each child. -/
def bestsFor : List PolicyNode → List (Option Selection)
  | [] => []
  | child :: children => bestOf holderCounts (selectionsFor child) :: bestsFor children

end

mutual

/-- Add the types that are required and missing. -/
def findGaps : PolicyNode → List String → List String
  | .badge leaf, gaps => if leafSatisfied leaf badges now then gaps else setAdd gaps leaf.type
  | .allOf nodes, gaps => findGapsUnmet nodes gaps
  | .anyOf nodes, gaps => findGapsAll nodes gaps
  | .atLeast _ nodes, gaps => findGapsUnmet nodes gaps

/-- The children that are not met. -/
def findGapsUnmet : List PolicyNode → List String → List String
  | [], gaps => gaps
  | child :: children, gaps =>
    findGapsUnmet children (if evaluate badges now child then gaps else findGaps child gaps)

/-- Every child. -/
def findGapsAll : List PolicyNode → List String → List String
  | [], gaps => gaps
  | child :: children, gaps => findGapsAll children (findGaps child gaps)

end

structure SelectionResult where
  satisfiable : Bool
  selectedBadgeIds : List String
  alternatives : List (List String)
  gaps : List String
  deriving DecidableEq, Repr

def selectMinimalAnonymitySet (policy : PolicyNode) : SelectionResult :=
  match selectionsFor badges holderCounts now policy with
  | [] => ⟨false, [], [], findGaps badges now policy []⟩
  | best :: rest => ⟨true, best.badgeIds, rest.map (·.badgeIds), []⟩

/-- Trim the submitted badges to the chosen ones. Without a policy all of them stay. -/
def minimizeToPolicy (policy : Option PolicyNode) : List UserBadge :=
  match policy with
  | none => badges
  | some policy =>
    badges.filter fun b =>
      b.id ∈ (selectMinimalAnonymitySet badges holderCounts now policy).selectedBadgeIds

end Offers

/-! ### The ranking keeps offers -/

section Ranking

variable {holderCounts : HolderCounts} {selections : List Selection} {sel : Selection}

theorem mem_sortSelections : sel ∈ sortSelections holderCounts selections ↔ sel ∈ selections :=
  List.mem_insertionSort _

theorem dedupeSelections_sublist (seen : List String) :
    (dedupeSelections seen selections).Sublist selections := by
  induction selections generalizing seen with
  | nil => exact .slnil
  | cons first rest ih =>
    rw [dedupeSelections]
    split_ifs
    · exact (ih _).cons first
    · exact (ih _).cons_cons first

/-- What is kept is in the order of the ranking. -/
theorem rankAndCap_sublist :
    (rankAndCap holderCounts selections).Sublist (sortSelections holderCounts selections) :=
  (List.take_sublist _ _).trans (dedupeSelections_sublist [])

theorem mem_of_mem_rankAndCap (h : sel ∈ rankAndCap holderCounts selections) :
    sel ∈ selections :=
  mem_sortSelections.mp (rankAndCap_sublist.subset h)

/-- The best offer is never capped. -/
theorem rankAndCap_ne_nil (h : selections ≠ []) : rankAndCap holderCounts selections ≠ [] := by
  have hsorted : sortSelections holderCounts selections ≠ [] := by
    intro hnil
    obtain ⟨sel, hsel⟩ := List.exists_mem_of_ne_nil selections h
    have hmem : sel ∈ sortSelections holderCounts selections := mem_sortSelections.mpr hsel
    rw [hnil] at hmem
    exact List.not_mem_nil hmem
  obtain ⟨first, rest, hcons⟩ := List.exists_cons_of_ne_nil hsorted
  rw [rankAndCap, hcons, dedupeSelections, if_neg List.not_mem_nil, maxAlternatives,
    List.take_succ_cons]
  exact List.cons_ne_nil _ _

theorem rankAndCap_eq_nil_iff : rankAndCap holderCounts selections = [] ↔ selections = [] := by
  constructor
  · intro h
    by_contra hne
    exact rankAndCap_ne_nil hne h
  · rintro rfl
    rfl

theorem bestOf_isSome : (bestOf holderCounts selections).isSome ↔ selections ≠ [] := by
  cases selections with
  | nil => simp [bestOf]
  | cons first rest => simp [bestOf]

/-! ### Merging -/

theorem mem_setAdd {xs : List String} {x y : String} : y ∈ setAdd xs x ↔ y ∈ xs ∨ y = x := by
  rw [setAdd]
  split_ifs with h
  · constructor
    · exact .inl
    · rintro (hy | rfl)
      · exact hy
      · exact h
  · rw [List.mem_append, List.mem_singleton]

theorem mem_foldl_setAdd {xs ys : List String} {y : String} :
    y ∈ ys.foldl setAdd xs ↔ y ∈ xs ∨ y ∈ ys := by
  induction ys generalizing xs with
  | nil => simp
  | cons z ys ih => rw [List.foldl_cons, ih, mem_setAdd, List.mem_cons, or_assoc]

theorem mem_mergeSelections {parts : List Selection} {id : String} :
    id ∈ (mergeSelections parts).badgeIds ↔ ∃ part ∈ parts, id ∈ part.badgeIds := by
  have hfold : ∀ ids : List String,
      id ∈ parts.foldl (fun ids part => part.badgeIds.foldl setAdd ids) ids ↔
        id ∈ ids ∨ ∃ part ∈ parts, id ∈ part.badgeIds := by
    induction parts with
    | nil => simp
    | cons part parts ih =>
      intro ids
      rw [List.foldl_cons, ih, mem_foldl_setAdd, or_assoc, List.exists_mem_cons_iff]
  rw [mergeSelections, hfold]
  simp

/-! ### Combinations -/

theorem mem_nCombinations {α : Type*} {xs c : List α} {n : ℕ} :
    c ∈ nCombinations xs n ↔ c.Sublist xs ∧ c.length = n := by
  induction xs generalizing c n with
  | nil =>
    cases n with
    | zero => simp [nCombinations]
    | succ n =>
      refine iff_of_false List.not_mem_nil ?_
      rintro ⟨hsub, hlength⟩
      rw [List.sublist_nil.mp hsub] at hlength
      cases hlength
  | cons x xs ih =>
    cases n with
    | zero => simpa [nCombinations] using fun h => h ▸ List.nil_sublist _
    | succ n =>
      rw [nCombinations, List.mem_append, List.mem_map]
      constructor
      · rintro (⟨c, hc, rfl⟩ | hc)
        · exact ⟨(ih.mp hc).1.cons_cons x, congrArg Nat.succ (ih.mp hc).2⟩
        · exact ⟨(ih.mp hc).1.cons x, (ih.mp hc).2⟩
      · rintro ⟨hsub, hlength⟩
        cases hsub with
        | cons _ hsub => exact .inr (ih.mpr ⟨hsub, hlength⟩)
        | cons_cons _ hsub => exact .inl ⟨_, ih.mpr ⟨hsub, Nat.succ_inj.mp hlength⟩, rfl⟩

/-- Every offer of an `atLeast` node is put together from as many of its children's offers as
its threshold asks for. -/
theorem mem_combine {childBests : List Selection} {n : ℕ}
    (h : sel ∈ combine holderCounts n childBests) :
    ∃ parts : List Selection, parts.Subperm childBests ∧ parts.length = n ∧
      sel = mergeSelections parts := by
  have hperm : (sortSelections holderCounts childBests).Perm childBests :=
    List.perm_insertionSort _ _
  rw [combine] at h
  split_ifs at h with hn hfew
  · refine ⟨[], List.nil_subperm, (Nat.le_zero.mp hn).symm, ?_⟩
    exact List.mem_singleton.mp h
  · exact absurd h List.not_mem_nil
  · refine ⟨_, (List.take_sublist n _).subperm.trans hperm.subperm, ?_, List.mem_singleton.mp h⟩
    rw [List.length_take, hperm.length_eq]
    omega
  · obtain ⟨parts, hparts, rfl⟩ := List.mem_map.mp (mem_of_mem_rankAndCap h)
    obtain ⟨hsub, hlength⟩ := mem_nCombinations.mp hparts
    exact ⟨parts, (hsub.trans (List.take_sublist _ _)).subperm.trans hperm.subperm, hlength, rfl⟩

theorem combine_eq_nil_iff {childBests : List Selection} {n : ℕ} :
    combine holderCounts n childBests = [] ↔ childBests.length < n := by
  have hlength : (sortSelections holderCounts childBests).length = childBests.length :=
    List.length_insertionSort _ _
  rw [combine]
  split_ifs with hn hfew
  · simp [Nat.le_zero.mp hn]
  · simpa using hfew
  · simpa using hfew
  · rw [rankAndCap_eq_nil_iff, List.map_eq_nil_iff]
    refine iff_of_false ?_ hfew
    apply List.ne_nil_of_mem
    refine mem_nCombinations.mpr ⟨List.take_sublist n _, ?_⟩
    rw [List.length_take, shortlist, List.length_take, hlength]
    omega

end Ranking

end Minister.Policy

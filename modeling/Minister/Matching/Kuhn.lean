import Mathlib.Data.Finset.Card
import Mathlib.Data.List.Perm.Basic
import Mathlib.Data.List.Nodup
import Mathlib.Logic.Function.Basic

/-!
# Maximum bipartite matching by augmenting paths

Kuhn's algorithm. The elements of the left side are taken one after the other. For each,
a depth-first search looks for a partner that is free, or whose own partner can move to
another one. An element whose search fails is passed over for good.

Each right element is visited at most once in a search, so that a search is never deeper
than there are right elements.

That an element passed over could not have been matched later is seen from what its
search has visited: a set of right elements that are all taken, by left elements without
a neighbour outside of the set. No later search enters such a set and comes out of it.
At the end, the union of these sets is a bound for every matching.
-/

namespace Matching

variable {α β : Type*} [DecidableEq β]

/-- What a search carries: the right elements it has visited, and the partner of each. -/
structure Search (α β : Type*) where
  visited : List β
  partner : β → Option α

/-- Try the neighbours of a left element in turn. A neighbour that is taken is given up
by its partner if `move` finds the partner another one. -/
def scan (move : α → Search α β → Bool × Search α β) (left : α) :
    List β → Search α β → Bool × Search α β
  | [], st => (false, st)
  | r :: rs, st =>
    if r ∈ st.visited then scan move left rs st
    else
      match st.partner r with
      | none => (true, ⟨r :: st.visited, Function.update st.partner r (some left)⟩)
      | some other =>
        match move other ⟨r :: st.visited, st.partner⟩ with
        | (true, st') => (true, ⟨st'.visited, Function.update st'.partner r (some left)⟩)
        | (false, st') => scan move left rs st'

/-- Find a partner for a left element, with a bound on the depth of the search. -/
def tryAssign (adj : α → List β) : ℕ → α → Search α β → Bool × Search α β
  | 0, _, st => (false, st)
  | fuel + 1, left, st => scan (tryAssign adj fuel) left (adj left) st

/-- One round of the main loop: the partners so far and how many there are. -/
def assign (adj : α → List β) (fuel : ℕ) (acc : (β → Option α) × ℕ) (left : α) :
    (β → Option α) × ℕ :=
  match tryAssign adj fuel left ⟨[], acc.1⟩ with
  | (true, st) => (st.partner, acc.2 + 1)
  | (false, st) => (st.partner, acc.2)

/-- The number of left elements that get a partner, if there are `size` right elements. -/
def kuhn (adj : α → List β) (size : ℕ) (lefts : List α) : ℕ :=
  (lefts.foldl (assign adj (size + 1)) (fun _ => none, 0)).2

/-! ### Searches -/

section Searches

variable {adj : α → List β} {rights : Finset β} {left : α} {st st' : Search α β} {fuel : ℕ}

/-- Partners are neighbours. -/
def Respects (adj : α → List β) (partner : β → Option α) : Prop :=
  ∀ r x, partner r = some x → r ∈ adj x

/-- The right elements a search may still visit. -/
def Search.unvisited (st : Search α β) (rights : Finset β) : Finset β :=
  rights.filter fun r => r ∉ st.visited

/-- The left elements that have a partner in a set, with repetitions. -/
def taken (partner : β → Option α) (rights : Finset β) : Multiset α :=
  rights.val.filterMap partner

/-- What a successful search has done: it has left alone what was visited before it, and
the others are now partners of the same left elements and of one more. -/
structure Grown (adj : α → List β) (rights : Finset β) (left : α) (st st' : Search α β) :
    Prop where
  respects : Respects adj st.partner → Respects adj st'.partner
  kept : ∀ r ∈ st.visited, st'.partner r = st.partner r
  taken_eq : taken st'.partner (st.unvisited rights) =
    left ::ₘ taken st.partner (st.unvisited rights)

/-- What a search that has failed at the given neighbours has done: it has changed nothing,
and whatever it has visited is taken by a left element whose neighbours it has visited. -/
structure Stuck (adj : α → List β) (neighbours : List β) (st st' : Search α β) : Prop where
  partner : st'.partner = st.partner
  visited : ∀ r ∈ st.visited, r ∈ st'.visited
  neighbours : ∀ r ∈ neighbours, r ∈ st'.visited
  closed : ∀ r ∈ st'.visited, r ∉ st.visited →
    ∃ x, st.partner r = some x ∧ ∀ r' ∈ adj x, r' ∈ st'.visited

/-! #### Taken elements -/

variable {p q : β → Option α} {U Z : Finset β}

omit [DecidableEq β] in
theorem taken_congr (h : ∀ r ∈ U, p r = q r) : taken p U = taken q U := by
  have hval : ∀ t : Multiset β, (∀ r ∈ t, p r = q r) → t.filterMap p = t.filterMap q := by
    intro t ht
    induction t using Quotient.inductionOn with
    | h l => exact congrArg (fun l : List α => (l : Multiset α)) (List.filterMap_congr ht)
  exact hval U.val h

omit [DecidableEq β] in
theorem mem_taken {x : α} : x ∈ taken p U ↔ ∃ r ∈ U, p r = some x :=
  Multiset.mem_filterMap p U.val

omit [DecidableEq β] in
theorem taken_none (U : Finset β) : taken (fun _ => (none : Option α)) U = 0 := by
  apply Multiset.eq_zero_of_forall_notMem
  intro x hx
  obtain ⟨r, -, hr⟩ := mem_taken.mp hx
  cases hr

theorem taken_eq_add {V : Finset β} (h : V ⊆ U) : taken p U = taken p V + taken p (U \ V) := by
  have hval : U.val = V.val + (U \ V).val := by
    rw [Finset.sdiff_val, Multiset.add_comm, Multiset.sub_add_cancel (Finset.val_le_iff.mpr h)]
  rw [taken, hval, Multiset.filterMap_add]
  rfl

theorem taken_of_none {r : β} (hr : r ∈ U) (hp : p r = none) :
    taken p U = taken p (U.erase r) := by
  rw [taken, ← Multiset.cons_erase (Finset.mem_val.mpr hr), Multiset.filterMap_cons_none r _ hp,
    ← Finset.erase_val]
  rfl

theorem taken_of_some {r : β} {x : α} (hr : r ∈ U) (hp : p r = some x) :
    taken p U = x ::ₘ taken p (U.erase r) := by
  rw [taken, ← Multiset.cons_erase (Finset.mem_val.mpr hr), Multiset.filterMap_cons_some p r _ hp,
    ← Finset.erase_val]
  rfl

/-- Giving an element a partner only affects that element. -/
theorem taken_update {r : β} (hr : r ∈ U) (x : α) :
    taken (Function.update p r (some x)) U = x ::ₘ taken p (U.erase r) := by
  rw [taken_of_some hr (Function.update_self r (some x) p)]
  congr 1
  apply taken_congr
  intro r' hr'
  exact Function.update_of_ne (Finset.ne_of_mem_erase hr') _ _

/-! #### Success -/

theorem mem_unvisited {r : β} : r ∈ st.unvisited rights ↔ r ∈ rights ∧ r ∉ st.visited :=
  Finset.mem_filter

/-- Visiting an element takes it off the list. -/
theorem unvisited_cons {r : β} :
    Search.unvisited ⟨r :: st.visited, p⟩ rights = (st.unvisited rights).erase r := by
  ext r'
  simp only [mem_unvisited, List.mem_cons, not_or, Finset.mem_erase]
  tauto

theorem unvisited_subset (rights : Finset β) (h : ∀ r ∈ st.visited, r ∈ st'.visited) :
    st'.unvisited rights ⊆ st.unvisited rights := by
  intro r hr
  obtain ⟨hright, hvis⟩ := mem_unvisited.mp hr
  exact mem_unvisited.mpr ⟨hright, fun hold => hvis (h r hold)⟩

/-- A success after some failures, which have only visited more elements. -/
theorem Grown.of_visited {st₁ : Search α β} (hpartner : st₁.partner = st.partner)
    (hvisited : ∀ r ∈ st.visited, r ∈ st₁.visited) (h : Grown adj rights left st₁ st') :
    Grown adj rights left st st' := by
  refine ⟨fun hr => h.respects (hpartner ▸ hr), ?_, ?_⟩
  · intro r hr
    rw [h.kept r (hvisited r hr), hpartner]
  · have hsub := unvisited_subset rights hvisited
    have hrest : taken st'.partner (st.unvisited rights \ st₁.unvisited rights) =
        taken st.partner (st.unvisited rights \ st₁.unvisited rights) := by
      apply taken_congr
      intro r hr
      -- An element that is not unvisited any more has been visited by the failures.
      obtain ⟨hold, hnew⟩ := Finset.mem_sdiff.mp hr
      have hvis : r ∈ st₁.visited := by
        by_contra hno
        exact hnew (mem_unvisited.mpr ⟨(mem_unvisited.mp hold).1, hno⟩)
      rw [h.kept r hvis, hpartner]
    rw [taken_eq_add hsub, h.taken_eq, hrest, hpartner, Multiset.cons_add, ← taken_eq_add hsub]

theorem Respects.update {r : β} (h : Respects adj p) (hadj : r ∈ adj left) :
    Respects adj (Function.update p r (some left)) := by
  intro r' x hx
  by_cases heq : r' = r
  · subst heq
    rw [Function.update_self] at hx
    rwa [← Option.some.inj hx]
  · rw [Function.update_of_ne heq] at hx
    exact h r' x hx

/-- A neighbour that is free. -/
theorem grown_of_free {r : β} (hr : r ∈ rights) (hadj : r ∈ adj left) (hvis : r ∉ st.visited)
    (hp : st.partner r = none) :
    Grown adj rights left st ⟨r :: st.visited, Function.update st.partner r (some left)⟩ where
  respects hresp := hresp.update hadj
  kept r' hr' := Function.update_of_ne (ne_of_mem_of_not_mem hr' hvis) _ _
  taken_eq := by
    have hmem : r ∈ st.unvisited rights := mem_unvisited.mpr ⟨hr, hvis⟩
    rw [taken_update hmem, taken_of_none hmem hp]

/-- A neighbour whose partner has found another one. -/
theorem grown_of_moved {r : β} {other : α} (hr : r ∈ rights) (hadj : r ∈ adj left)
    (hvis : r ∉ st.visited) (hp : st.partner r = some other)
    (h : Grown adj rights other ⟨r :: st.visited, st.partner⟩ st') :
    Grown adj rights left st ⟨st'.visited, Function.update st'.partner r (some left)⟩ where
  respects hresp := (h.respects hresp).update hadj
  kept r' hr' := by
    have hne : r' ≠ r := ne_of_mem_of_not_mem hr' hvis
    exact (Function.update_of_ne hne _ _).trans (h.kept r' (List.mem_cons_of_mem r hr'))
  taken_eq := by
    have hmem : r ∈ st.unvisited rights := mem_unvisited.mpr ⟨hr, hvis⟩
    have hmoved := h.taken_eq
    rw [unvisited_cons] at hmoved
    rw [taken_update hmem, hmoved, taken_of_some hmem hp]

/-! #### The loop over the neighbours -/

variable {move : α → Search α β → Bool × Search α β} {r : β} {rs : List β} {b : Bool}

/-- What the loop does with one neighbour. -/
theorem scan_cons_cases (h : scan move left (r :: rs) st = (b, st')) :
    (r ∈ st.visited ∧ scan move left rs st = (b, st')) ∨
      (r ∉ st.visited ∧ st.partner r = none ∧ b = true ∧
        st' = ⟨r :: st.visited, Function.update st.partner r (some left)⟩) ∨
      ∃ other st₁, r ∉ st.visited ∧ st.partner r = some other ∧
        (move other ⟨r :: st.visited, st.partner⟩ = (true, st₁) ∧ b = true ∧
            st' = ⟨st₁.visited, Function.update st₁.partner r (some left)⟩ ∨
          move other ⟨r :: st.visited, st.partner⟩ = (false, st₁) ∧
            scan move left rs st₁ = (b, st')) := by
  rw [scan] at h
  split at h
  · exact .inl ⟨‹_›, h⟩
  · rename_i hvis
    split at h
    · obtain ⟨rfl, rfl⟩ := Prod.mk.inj h
      exact .inr (.inl ⟨hvis, ‹_›, rfl, rfl⟩)
    · rename_i other hp
      split at h
      · rename_i st₁ hmove
        obtain ⟨rfl, rfl⟩ := Prod.mk.inj h
        exact .inr (.inr ⟨other, st₁, hvis, hp, .inl ⟨hmove, rfl, rfl⟩⟩)
      · rename_i st₁ hmove
        exact .inr (.inr ⟨other, st₁, hvis, hp, .inr ⟨hmove, h⟩⟩)

/-- Nothing but visits. -/
structure Idle (st st' : Search α β) : Prop where
  partner : st'.partner = st.partner
  visited : ∀ r ∈ st.visited, r ∈ st'.visited

theorem scan_idle (hmove : ∀ other st st', move other st = (false, st') → Idle st st')
    (h : scan move left rs st = (false, st')) : Idle st st' := by
  induction rs generalizing st with
  | nil =>
    obtain ⟨-, rfl⟩ := Prod.mk.inj h
    exact ⟨rfl, fun _ => id⟩
  | cons r rs ih =>
    rcases scan_cons_cases h with ⟨-, h⟩ | ⟨-, -, hb, -⟩ | ⟨other, st₁, -, -, h₁ | h₁⟩
    · exact ih h
    · cases hb
    · cases h₁.2.1
    · have hfirst := hmove _ _ _ h₁.1
      have hrest := ih h₁.2
      refine ⟨hrest.partner.trans hfirst.partner, fun r' hr' => hrest.visited r' ?_⟩
      exact hfirst.visited r' (List.mem_cons_of_mem r hr')

theorem scan_grown (hidle : ∀ other st st', move other st = (false, st') → Idle st st')
    (hmove : ∀ other st st', move other st = (true, st') → Grown adj rights other st st')
    (hrs : ∀ r ∈ rs, r ∈ rights ∧ r ∈ adj left) (h : scan move left rs st = (true, st')) :
    Grown adj rights left st st' := by
  induction rs generalizing st with
  | nil => cases h
  | cons r rs ih =>
    have hr := hrs r List.mem_cons_self
    have ih' {st : Search α β} (h : scan move left rs st = (true, st')) :=
      ih (fun r' hr' => hrs r' (List.mem_cons_of_mem r hr')) h
    rcases scan_cons_cases h with ⟨-, h⟩ | ⟨hvis, hp, -, rfl⟩ | ⟨other, st₁, hvis, hp, h₁ | h₁⟩
    · exact ih' h
    · exact grown_of_free hr.1 hr.2 hvis hp
    · obtain ⟨h₁, -, rfl⟩ := h₁
      exact grown_of_moved hr.1 hr.2 hvis hp (hmove _ _ _ h₁)
    · have hfirst := hidle _ _ _ h₁.1
      refine (ih' h₁.2).of_visited hfirst.partner fun r' hr' => ?_
      exact hfirst.visited r' (List.mem_cons_of_mem r hr')

theorem Stuck.trans {ns ns' : List β} {st₁ : Search α β} (h : Stuck adj ns st st₁)
    (h' : Stuck adj ns' st₁ st') : Stuck adj (ns ++ ns') st st' where
  partner := h'.partner.trans h.partner
  visited r hr := h'.visited r (h.visited r hr)
  neighbours r hr := by
    rcases List.mem_append.mp hr with hr | hr
    · exact h'.visited r (h.neighbours r hr)
    · exact h'.neighbours r hr
  closed r hr hnew := by
    by_cases hfirst : r ∈ st₁.visited
    · obtain ⟨x, hx, hadj⟩ := h.closed r hfirst hnew
      exact ⟨x, hx, fun r' hr' => h'.visited r' (hadj r' hr')⟩
    · rw [← h.partner]
      exact h'.closed r hr hfirst

/-- A neighbour whose partner cannot move. -/
theorem stuck_of_unmoved {other : α} (hp : st.partner r = some other)
    (h : Stuck adj (adj other) ⟨r :: st.visited, st.partner⟩ st') : Stuck adj [r] st st' where
  partner := h.partner
  visited r' hr' := h.visited r' (List.mem_cons_of_mem r hr')
  neighbours r' hr' := by
    rw [List.mem_singleton.mp hr']
    exact h.visited r List.mem_cons_self
  closed r' hr' hnew := by
    by_cases heq : r' = r
    · subst heq
      exact ⟨other, hp, h.neighbours⟩
    · exact h.closed r' hr' (List.not_mem_cons_of_ne_of_not_mem heq hnew)

theorem scan_stuck (hrs : ∀ r ∈ rs, r ∈ rights) (hfuel : (st.unvisited rights).card < fuel + 1)
    (hmove : ∀ other st st', (st.unvisited rights).card < fuel → move other st = (false, st') →
      Stuck adj (adj other) st st')
    (h : scan move left rs st = (false, st')) : Stuck adj rs st st' := by
  induction rs generalizing st with
  | nil =>
    obtain ⟨-, rfl⟩ := Prod.mk.inj h
    exact ⟨rfl, fun _ => id, fun _ hr => absurd hr List.not_mem_nil, fun _ hr hn => absurd hr hn⟩
  | cons r rs ih =>
    have ih' {st : Search α β} (hfuel : (st.unvisited rights).card < fuel + 1)
        (h : scan move left rs st = (false, st')) :=
      ih (fun r' hr' => hrs r' (List.mem_cons_of_mem r hr')) hfuel h
    rcases scan_cons_cases h with ⟨hvis, h⟩ | ⟨-, -, hb, -⟩ | ⟨other, st₁, hvis, hp, h₁ | h₁⟩
    · have hrest := ih' hfuel h
      refine ⟨hrest.partner, hrest.visited, fun r' hr' => ?_, hrest.closed⟩
      rcases List.mem_cons.mp hr' with rfl | hr'
      · exact hrest.visited r' hvis
      · exact hrest.neighbours r' hr'
    · cases hb
    · cases h₁.2.1
    · -- One element less is unvisited, and one unit of fuel less is needed.
      have hmem : r ∈ st.unvisited rights := mem_unvisited.mpr ⟨hrs r List.mem_cons_self, hvis⟩
      have hless : (Search.unvisited ⟨r :: st.visited, st.partner⟩ rights).card < fuel := by
        rw [unvisited_cons, Finset.card_erase_of_mem hmem]
        have hpos := Finset.card_pos.mpr ⟨r, hmem⟩
        omega
      have hfirst := stuck_of_unmoved hp (hmove _ _ _ hless h₁.1)
      have hcard := Finset.card_le_card (unvisited_subset rights hfirst.visited)
      exact hfirst.trans (ih' (Nat.lt_of_le_of_lt hcard hfuel) h₁.2)

/-! #### Closed sets -/

/-- Every element of the set is taken, by a left element with no neighbour outside. -/
def Closed (adj : α → List β) (partner : β → Option α) (Z : Finset β) : Prop :=
  ∀ r ∈ Z, ∃ x, partner r = some x ∧ ∀ r' ∈ adj x, r' ∈ Z

omit [DecidableEq β] in
theorem Closed.congr (h : Closed adj p Z) (hpq : ∀ r ∈ Z, q r = p r) : Closed adj q Z := by
  intro r hr
  rw [hpq r hr]
  exact h r hr

theorem Closed.union {W : Finset β} (hZ : Closed adj p Z) (hW : Closed adj p W) :
    Closed adj p (Z ∪ W) := by
  intro r hr
  rcases Finset.mem_union.mp hr with hr | hr
  · obtain ⟨x, hx, hadj⟩ := hZ r hr
    exact ⟨x, hx, fun r' hr' => Finset.mem_union_left W (hadj r' hr')⟩
  · obtain ⟨x, hx, hadj⟩ := hW r hr
    exact ⟨x, hx, fun r' hr' => Finset.mem_union_right Z (hadj r' hr')⟩

/-- What a failed search has visited from scratch is closed. -/
theorem Stuck.closed_visited {ns : List β} (h : Stuck adj ns ⟨[], p⟩ st') :
    Closed adj p st'.visited.toFinset := by
  intro r hr
  obtain ⟨x, hx, hadj⟩ := h.closed r (List.mem_toFinset.mp hr) List.not_mem_nil
  exact ⟨x, hx, fun r' hr' => List.mem_toFinset.mpr (hadj r' hr')⟩

/-- A search that succeeds does not enter a closed set. -/
theorem scan_avoids (hidle : ∀ other st st', move other st = (false, st') → Idle st st')
    (hmove : ∀ other st st', Closed adj st.partner Z → move other st = (true, st') →
      (∀ r ∈ Z, st'.partner r = st.partner r) ∧ ∃ r ∈ adj other, r ∉ Z)
    (hZ : Closed adj st.partner Z) (h : scan move left rs st = (true, st')) :
    (∀ r ∈ Z, st'.partner r = st.partner r) ∧ ∃ r ∈ rs, r ∉ Z := by
  induction rs generalizing st with
  | nil => cases h
  | cons r rs ih =>
    rcases scan_cons_cases h with ⟨-, h⟩ | ⟨-, hp, -, rfl⟩ | ⟨other, st₁, -, hp, h₁ | h₁⟩
    · obtain ⟨hkept, r', hr', hout⟩ := ih hZ h
      exact ⟨hkept, r', List.mem_cons_of_mem r hr', hout⟩
    · have hout : r ∉ Z := by
        intro hr
        obtain ⟨x, hx, -⟩ := hZ r hr
        rw [hp] at hx
        cases hx
      refine ⟨fun r' hr' => ?_, r, List.mem_cons_self, hout⟩
      exact Function.update_of_ne (ne_of_mem_of_not_mem hr' hout) _ _
    · obtain ⟨h₁, -, rfl⟩ := h₁
      obtain ⟨hkept, r₁, hr₁, hout₁⟩ := hmove other ⟨r :: st.visited, st.partner⟩ st₁ hZ h₁
      have hout : r ∉ Z := by
        intro hr
        obtain ⟨x, hx, hadj⟩ := hZ r hr
        rw [hp] at hx
        rw [← Option.some.inj hx] at hadj
        exact hout₁ (hadj r₁ hr₁)
      refine ⟨fun r' hr' => ?_, r, List.mem_cons_self, hout⟩
      exact (Function.update_of_ne (ne_of_mem_of_not_mem hr' hout) _ _).trans (hkept r' hr')
    · have hfirst := hidle _ _ _ h₁.1
      have hZ' : Closed adj st₁.partner Z := by
        rw [hfirst.partner]
        exact hZ
      obtain ⟨hkept, r', hr', hout⟩ := ih hZ' h₁.2
      refine ⟨fun r₂ hr₂ => ?_, r', List.mem_cons_of_mem r hr', hout⟩
      rw [hkept r₂ hr₂, hfirst.partner]

/-! #### The search -/

theorem tryAssign_idle (h : tryAssign adj fuel left st = (false, st')) : Idle st st' := by
  induction fuel generalizing left st st' with
  | zero =>
    obtain ⟨-, rfl⟩ := Prod.mk.inj h
    exact ⟨rfl, fun _ => id⟩
  | succ fuel ih => exact scan_idle (fun _ _ _ => ih) h

/-- A search that succeeds gives one more left element a partner. -/
theorem tryAssign_grown (hadj : ∀ x, ∀ r ∈ adj x, r ∈ rights)
    (h : tryAssign adj fuel left st = (true, st')) : Grown adj rights left st st' := by
  induction fuel generalizing left st st' with
  | zero => cases h
  | succ fuel ih =>
    exact scan_grown (fun _ _ _ => tryAssign_idle) (fun _ _ _ => ih)
      (fun r hr => ⟨hadj left r hr, hr⟩) h

/-- A search that fails has followed every way there is. -/
theorem tryAssign_stuck (hadj : ∀ x, ∀ r ∈ adj x, r ∈ rights)
    (hfuel : (st.unvisited rights).card < fuel) (h : tryAssign adj fuel left st = (false, st')) :
    Stuck adj (adj left) st st' := by
  induction fuel generalizing left st st' with
  | zero => cases hfuel
  | succ fuel ih => exact scan_stuck (hadj left) hfuel (fun _ _ _ => ih) h

theorem tryAssign_avoids (hZ : Closed adj st.partner Z)
    (h : tryAssign adj fuel left st = (true, st')) :
    (∀ r ∈ Z, st'.partner r = st.partner r) ∧ ∃ r ∈ adj left, r ∉ Z := by
  induction fuel generalizing left st st' with
  | zero => cases h
  | succ fuel ih =>
    exact scan_avoids (fun _ _ _ => tryAssign_idle) (fun _ _ _ => ih) hZ h

end Searches

/-! ### The main loop -/

section Loop

variable {adj : α → List β} {rights : Finset β} {size : ℕ} {processed lefts : List α}
  {acc : (β → Option α) × ℕ} {left : α}

/-- What holds between two rounds. -/
structure Inv (adj : α → List β) (rights : Finset β) (processed : List α)
    (acc : (β → Option α) × ℕ) : Prop where
  respects : Respects adj acc.1
  count : (taken acc.1 rights).card = acc.2
  nodup : (taken acc.1 rights).Nodup
  mem_processed : ∀ x ∈ taken acc.1 rights, x ∈ processed
  /-- The elements passed over have their neighbours in a closed set. -/
  cover : ∃ Z, Closed adj acc.1 Z ∧
    ∀ x ∈ processed, x ∈ taken acc.1 rights ∨ ∀ r ∈ adj x, r ∈ Z

theorem unvisited_nil {p : β → Option α} : Search.unvisited ⟨[], p⟩ rights = rights := by
  ext r
  simp [mem_unvisited]

omit [DecidableEq β] in
theorem inv_nil : Inv adj rights [] (fun _ => none, 0) where
  respects := by
    intro r x hx
    cases hx
  count := by rw [taken_none, Multiset.card_zero]
  nodup := by
    rw [taken_none]
    exact Multiset.nodup_zero
  mem_processed := by simp [taken_none]
  cover :=
    ⟨∅, fun r hr => absurd hr (Finset.notMem_empty r), fun x hx => absurd hx List.not_mem_nil⟩

theorem inv_assign (hadj : ∀ x, ∀ r ∈ adj x, r ∈ rights) (hsize : rights.card ≤ size)
    (hnew : left ∉ processed) (h : Inv adj rights processed acc) :
    Inv adj rights (left :: processed) (assign adj (size + 1) acc left) := by
  obtain ⟨Z, hZ, hcover⟩ := h.cover
  rw [assign]
  split
  · rename_i st hsearch
    have hgrown := tryAssign_grown hadj hsearch
    have htaken : taken st.partner rights = left ::ₘ taken acc.1 rights := by
      have heq := hgrown.taken_eq
      rwa [unvisited_nil] at heq
    have hkept := (tryAssign_avoids hZ hsearch).1
    refine ⟨hgrown.respects h.respects, ?_, ?_, ?_, Z, hZ.congr hkept, ?_⟩
    · rw [htaken, Multiset.card_cons, h.count]
    · rw [htaken, Multiset.nodup_cons]
      exact ⟨fun hmem => hnew (h.mem_processed left hmem), h.nodup⟩
    · intro x hx
      rw [htaken, Multiset.mem_cons] at hx
      rcases hx with rfl | hx
      · exact List.mem_cons_self
      · exact List.mem_cons_of_mem left (h.mem_processed x hx)
    · intro x hx
      rw [htaken, Multiset.mem_cons]
      rcases List.mem_cons.mp hx with rfl | hx
      · exact .inl (.inl rfl)
      · exact (hcover x hx).imp_left .inr
  · rename_i st hsearch
    have hfuel : (Search.unvisited (⟨[], acc.1⟩ : Search α β) rights).card < size + 1 := by
      rw [unvisited_nil]
      omega
    have hstuck := tryAssign_stuck hadj hfuel hsearch
    have hpartner : st.partner = acc.1 := hstuck.partner
    rw [hpartner]
    refine ⟨h.respects, h.count, h.nodup,
      fun x hx => List.mem_cons_of_mem left (h.mem_processed x hx),
      Z ∪ st.visited.toFinset, hZ.union hstuck.closed_visited, ?_⟩
    intro x hx
    rcases List.mem_cons.mp hx with rfl | hx
    · refine .inr fun r hr => Finset.mem_union_right Z ?_
      exact List.mem_toFinset.mpr (hstuck.neighbours r hr)
    · exact (hcover x hx).imp_right fun hin r hr => Finset.mem_union_left _ (hin r hr)

theorem inv_foldl (hadj : ∀ x, ∀ r ∈ adj x, r ∈ rights) (hsize : rights.card ≤ size)
    (hnodup : (processed ++ lefts).Nodup) (h : Inv adj rights processed acc) :
    Inv adj rights (lefts.reverse ++ processed) (lefts.foldl (assign adj (size + 1)) acc) := by
  induction lefts generalizing processed acc with
  | nil => exact h
  | cons left lefts ih =>
    have hperm : (processed ++ left :: lefts).Perm (left :: processed ++ lefts) :=
      List.perm_middle
    have hnodup' := hperm.nodup_iff.mp hnodup
    have hnew : left ∉ processed := by
      intro hmem
      exact (List.nodup_cons.mp hnodup').1 (List.mem_append_left lefts hmem)
    rw [List.reverse_cons, List.append_assoc, List.singleton_append, List.foldl_cons]
    exact ih hnodup' (inv_assign hadj hsize hnew h)

omit [DecidableEq β] in
/-- A set whose elements are all taken has as many partners as elements. -/
theorem Closed.card_taken {p : β → Option α} {Z : Finset β} (hZ : Closed adj p Z) :
    (taken p Z).card = Z.card := by
  have hsome : ∀ t : Multiset β, (∀ r ∈ t, ∃ x, p r = some x) →
      (t.filterMap p).card = t.card := by
    intro t ht
    induction t using Multiset.induction_on with
    | empty => rfl
    | cons r t ih =>
      obtain ⟨x, hx⟩ := ht r (Multiset.mem_cons_self r t)
      rw [Multiset.filterMap_cons_some p r t hx, Multiset.card_cons, Multiset.card_cons,
        ih fun r' hr' => ht r' (Multiset.mem_cons_of_mem hr')]
  refine hsome Z.val fun r hr => ?_
  obtain ⟨x, hx, -⟩ := hZ r hr
  exact ⟨x, hx⟩

/-- A list without repetitions is no longer than a multiset that holds its elements. -/
theorem length_le_card {l : List α} {t : Multiset α} (hl : l.Nodup) (h : ∀ x ∈ l, x ∈ t) :
    l.length ≤ t.card :=
  Multiset.card_le_card ((Multiset.le_iff_subset (Multiset.coe_nodup.mpr hl)).mpr h)

/-- A matching between left elements and their neighbours. -/
structure IsMatching (adj : α → List β) (lefts : List α) (M : List (α × β)) : Prop where
  left_nodup : (M.map Prod.fst).Nodup
  right_nodup : (M.map Prod.snd).Nodup
  edge : ∀ q ∈ M, q.1 ∈ lefts ∧ q.2 ∈ adj q.1

/-- No matching is larger. The closed set bounds the pairs with a right element in it, and
the elements taken outside of it bound the others. -/
theorem Inv.length_le (hadj : ∀ x, ∀ r ∈ adj x, r ∈ rights) (h : Inv adj rights processed acc)
    {M : List (α × β)} (hM : IsMatching adj processed M) : M.length ≤ acc.2 := by
  obtain ⟨Z, hZ, hcover⟩ := h.cover
  have hZrights : Z ⊆ rights := by
    intro r hr
    obtain ⟨x, hx, -⟩ := hZ r hr
    exact hadj x r (h.respects r x hx)
  have hin : (M.filter fun q => q.2 ∈ Z).length ≤ Z.card := by
    have hsub := (List.filter_sublist (p := fun q => q.2 ∈ Z) (l := M)).map Prod.snd
    have hle := length_le_card (t := Z.val) (hM.right_nodup.sublist hsub) (by simp)
    simpa using hle
  have hout : (M.filter fun q => !decide (q.2 ∈ Z)).length ≤ (taken acc.1 (rights \ Z)).card := by
    have hsub := (List.filter_sublist (p := fun q => !decide (q.2 ∈ Z)) (l := M)).map Prod.fst
    have hle := length_le_card (t := taken acc.1 (rights \ Z)) (hM.left_nodup.sublist hsub) ?_
    · simpa using hle
    · intro x hx
      obtain ⟨q, hq, rfl⟩ := List.mem_map.mp hx
      obtain ⟨hqM, hqZ⟩ := List.mem_filter.mp hq
      have hqZ : q.2 ∉ Z := by simpa using hqZ
      obtain ⟨hleft, hright⟩ := hM.edge q hqM
      rcases hcover q.1 hleft with htaken | hclosed
      · obtain ⟨r, hr, hp⟩ := mem_taken.mp htaken
        refine mem_taken.mpr ⟨r, Finset.mem_sdiff.mpr ⟨hr, fun hrZ => hqZ ?_⟩, hp⟩
        obtain ⟨x, hx, hneighbours⟩ := hZ r hrZ
        obtain rfl : q.1 = x := Option.some.inj (hp.symm.trans hx)
        exact hneighbours q.2 hright
      · exact absurd (hclosed q.2 hright) hqZ
  calc M.length
      = (M.filter fun q => q.2 ∈ Z).length + (M.filter fun q => !decide (q.2 ∈ Z)).length :=
        List.length_eq_length_filter_add _
    _ ≤ (taken acc.1 Z).card + (taken acc.1 (rights \ Z)).card := by
        rw [hZ.card_taken]
        exact Nat.add_le_add hin hout
    _ = acc.2 := by rw [← Multiset.card_add, ← taken_eq_add hZrights, h.count]

omit [DecidableEq β] in
theorem map_snd_sublist (p : β → Option α) (l : List β) :
    ((l.filterMap fun r => (p r).map fun x => (x, r)).map Prod.snd).Sublist l := by
  induction l with
  | nil => exact List.Sublist.refl []
  | cons r l ih =>
    cases hp : p r with
    | none =>
      rw [List.filterMap_cons_none (by rw [hp, Option.map_none])]
      exact ih.cons r
    | some x =>
      rw [List.filterMap_cons_some (by rw [hp, Option.map_some]), List.map_cons]
      exact ih.cons_cons r

omit [DecidableEq β] in
/-- The partners make up a matching. -/
theorem Inv.exists_matching (h : Inv adj rights processed acc) :
    ∃ M, IsMatching adj processed M ∧ M.length = acc.2 := by
  have htaken : ((rights.toList.filterMap acc.1 : List α) : Multiset α) = taken acc.1 rights := by
    rw [taken, ← Finset.coe_toList, Multiset.filterMap_coe]
  let M := rights.toList.filterMap fun r => (acc.1 r).map fun x => (x, r)
  have hfst : M.map Prod.fst = rights.toList.filterMap acc.1 := by
    simp [M, List.map_filterMap, Function.comp_def]
  refine ⟨M, ⟨?_, ?_, ?_⟩, ?_⟩
  · rw [hfst, ← Multiset.coe_nodup, htaken]
    exact h.nodup
  · exact rights.nodup_toList.sublist (map_snd_sublist acc.1 rights.toList)
  · intro q hq
    obtain ⟨r, hr, hmap⟩ := List.mem_filterMap.mp hq
    obtain ⟨x, hx, rfl⟩ := Option.map_eq_some_iff.mp hmap
    refine ⟨h.mem_processed x (mem_taken.mpr ⟨r, Finset.mem_toList.mp hr, hx⟩), h.respects r x hx⟩
  · rw [← List.length_map (f := Prod.fst), hfst, ← Multiset.coe_card, htaken, h.count]

/-- The algorithm finds `n` partners exactly if there is a matching of `n` pairs. -/
theorem le_kuhn_iff (hadj : ∀ x, ∀ r ∈ adj x, r ∈ rights) (hsize : rights.card ≤ size)
    (hlefts : lefts.Nodup) {n : ℕ} :
    n ≤ kuhn adj size lefts ↔ ∃ M, IsMatching adj lefts M ∧ M.length = n := by
  have hinv : Inv adj rights (lefts.reverse ++ []) _ := inv_foldl hadj hsize hlefts inv_nil
  rw [List.append_nil] at hinv
  constructor
  · intro hn
    obtain ⟨M, hM, hlength⟩ := hinv.exists_matching
    have hsub := List.take_sublist n M
    refine ⟨M.take n, ⟨hM.left_nodup.sublist (hsub.map _), hM.right_nodup.sublist (hsub.map _),
      fun q hq => ?_⟩, ?_⟩
    · obtain ⟨hleft, hright⟩ := hM.edge q (hsub.subset hq)
      exact ⟨List.mem_reverse.mp hleft, hright⟩
    · rw [List.length_take, hlength]
      exact Nat.min_eq_left hn
  · rintro ⟨M, hM, rfl⟩
    exact hinv.length_le hadj ⟨hM.left_nodup, hM.right_nodup, fun q hq =>
      ⟨List.mem_reverse.mpr (hM.edge q hq).1, (hM.edge q hq).2⟩⟩

end Loop

end Matching

import Mathlib.Data.List.Basic
import Mathlib.Data.List.Nodup
import Mathlib.Data.List.Pairwise
import Mathlib.Data.List.Perm.Basic

/-!
# Tables under unique constraints

A relational table is the list of its rows. A statement either reads rows
(`findMany`), or rewrites the list and is refused when the outcome would break a
unique constraint. Constraints are given per row type as a clash relation: two
rows clash when some unique index of the table cannot hold both.

The order of the list carries no meaning; results about a whole table are
therefore stated up to permutation wherever a statement deletes and reinserts.
-/

namespace Relational

/-- What a refused statement reports. -/
inductive DbError
  /-- A unique constraint failed. -/
  | uniqueViolation
  /-- A single-row update found no row. -/
  | recordNotFound
  deriving DecidableEq, Repr

section Except

universe u v w

variable {ε : Type u} {α β : Type v} {X : Type w}

/-- A sequence succeeds exactly when each part does in turn. -/
theorem bind_eq_ok_iff {x : Except ε α} {f : α → Except ε β} {b : β} :
    x >>= f = .ok b ↔ ∃ a, x = .ok a ∧ f a = .ok b := by
  cases x with
  | error e => simp [bind, Except.bind]
  | ok a => simp [bind, Except.bind]

/-- A guard that is passed leaves the rest. -/
theorem ok_of_bind {x : Except ε α} {y : Except ε β} {b : β} (h : (x >>= fun _ => y) = .ok b) :
    y = .ok b := by
  obtain ⟨_, -, hrest⟩ := bind_eq_ok_iff.mp h
  exact hrest

theorem map_eq_ok_iff {x : Except ε α} {f : α → β} {b : β} :
    x.map f = .ok b ↔ ∃ a, x = .ok a ∧ f a = b := by
  cases x with
  | error e => simp [Except.map]
  | ok a => simp [Except.map]

@[simp] theorem ok_bind {a : α} {f : α → Except ε β} : (Except.ok a >>= f) = f a := rfl

/-- The rule for loops: if under an invariant of the rounds still to come each
round succeeds and computes `g`, the loop succeeds and computes the fold of `g`. -/
theorem foldlM_eq_ok {f : β → X → Except ε β} {g : β → X → β} (I : List X → β → Prop)
    (step : ∀ x xs s, I (x :: xs) s → f s x = .ok (g s x) ∧ I xs (g s x)) :
    ∀ {xs : List X} {s : β}, I xs s → xs.foldlM f s = .ok (xs.foldl g s)
  | [], _, _ => rfl
  | x :: xs, s, h => by
    obtain ⟨hf, hI⟩ := step x xs s h
    rw [List.foldlM_cons, hf, List.foldl_cons]
    exact foldlM_eq_ok I step hI

/-- A loop that succeeded computed the fold of what each successful round computes. -/
theorem eq_foldl_of_foldlM_eq_ok {f : β → X → Except ε β} {g : β → X → β}
    (step : ∀ x s s', f s x = .ok s' → s' = g s x) :
    ∀ {xs : List X} {s s' : β}, xs.foldlM f s = .ok s' → s' = xs.foldl g s
  | [], s, s', h => by
    cases h
    rfl
  | x :: xs, s, s', h => by
    rw [List.foldlM_cons, bind_eq_ok_iff] at h
    obtain ⟨s₁, h₁, h₂⟩ := h
    rw [List.foldl_cons, ← step x s s₁ h₁]
    exact eq_foldl_of_foldlM_eq_ok step h₂

/-- What every successful round keeps, a loop that succeeded keeps. -/
theorem foldlM_preserves {f : β → X → Except ε β} (I : β → Prop)
    (step : ∀ x s s', I s → f s x = .ok s' → I s') :
    ∀ {xs : List X} {s s' : β}, I s → xs.foldlM f s = .ok s' → I s'
  | [], s, s', hs, h => by
    cases h
    exact hs
  | x :: xs, s, s', hs, h => by
    rw [List.foldlM_cons, bind_eq_ok_iff] at h
    obtain ⟨s₁, h₁, h₂⟩ := h
    exact foldlM_preserves I step (step x s s₁ hs h₁) h₂

end Except

/-- Unique constraints of a row type, as the pairs of rows that cannot coexist. -/
class Constrained (R : Type*) where
  clash : R → R → Bool
  clash_comm : ∀ a b, clash a b = clash b a := by
    intro a b; simp only [BEq.comm]

export Constrained (clash)

section Rows

variable {R : Type*}

/-- Rewrite the rows that match. -/
def mapWhere (p : R → Bool) (f : R → R) (t : List R) : List R :=
  t.map fun r => if p r then f r else r

/-- Delete every matching row. -/
def deleteMany (p : R → Bool) (t : List R) : List R := t.filter fun r => !p r

/-- Select every matching row. -/
def findMany (p : R → Bool) (t : List R) : List R := t.filter p

variable {t t' : List R} {p q : R → Bool} {f g : R → R} {r : R}

theorem mem_findMany : r ∈ findMany p t ↔ r ∈ t ∧ p r = true := List.mem_filter

theorem mem_deleteMany : r ∈ deleteMany p t ↔ r ∈ t ∧ p r = false := by
  simp [deleteMany]

theorem mem_mapWhere : r ∈ mapWhere p f t ↔
    ∃ r₀ ∈ t, (if p r₀ then f r₀ else r₀) = r := by
  simp [mapWhere]

@[simp] theorem mapWhere_nil : mapWhere p f [] = [] := rfl

@[simp] theorem mapWhere_cons :
    mapWhere p f (r :: t) = (if p r then f r else r) :: mapWhere p f t := rfl

@[simp] theorem mapWhere_append :
    mapWhere p f (t ++ t') = mapWhere p f t ++ mapWhere p f t' := by
  simp [mapWhere]

/-- A lookup by columns that the rewrite keeps finds the same row, rewritten. -/
theorem find?_map_of_keeps (hq : ∀ r, q (f r) = q r) : (t.map f).find? q = (t.find? q).map f := by
  rw [List.find?_map, show q ∘ f = q from funext hq]

theorem find?_mapWhere (hq : ∀ r, q (f r) = q r) :
    (mapWhere p f t).find? q = (t.find? q).map fun r => if p r then f r else r := by
  refine find?_map_of_keeps fun r => ?_
  split_ifs
  · exact hq r
  · rfl

/-- A rewrite that changes no row of the table is the identity. -/
theorem mapWhere_eq_self (h : ∀ r ∈ t, p r = true → f r = r) : mapWhere p f t = t := by
  unfold mapWhere
  conv_rhs => rw [← List.map_id t]
  refine List.map_congr_left fun r hr => ?_
  by_cases hp : p r
  · simp [hp, h r hr hp]
  · simp [hp]

theorem mapWhere_congr (h : ∀ r ∈ t, (if p r then f r else r) = if q r then g r else r) :
    mapWhere p f t = mapWhere q g t :=
  List.map_congr_left h

theorem mapWhere_mapWhere :
    mapWhere q g (mapWhere p f t) =
      t.map fun r => if q (if p r then f r else r) then g (if p r then f r else r)
        else if p r then f r else r := by
  simp [mapWhere, Function.comp_def]

end Rows

section Statements

variable {R : Type*} [Constrained R]

/-- No two rows of the table clash. -/
def Consistent (t : List R) : Prop := t.Pairwise fun a b => clash a b = false

instance (t : List R) : Decidable (Consistent t) :=
  inferInstanceAs (Decidable (List.Pairwise _ _))

/-- Write a table back, unless a unique constraint forbids it. -/
def store (t : List R) : Except DbError (List R) :=
  if Consistent t then .ok t else .error .uniqueViolation

/-- Update every matching row. -/
def updateMany (p : R → Bool) (f : R → R) (t : List R) : Except DbError (List R) :=
  store (mapWhere p f t)

/-- Update the row a unique selector names; it must exist. -/
def update (p : R → Bool) (f : R → R) (t : List R) : Except DbError (List R) :=
  if t.any p then store (mapWhere p f t) else .error .recordNotFound

/-- Insert a row. -/
def create (r : R) (t : List R) : Except DbError (List R) := store (t ++ [r])

/-- Insert rows one statement at a time. -/
def creates (rs : List R) (t : List R) : Except DbError (List R) :=
  rs.foldlM (fun t r => create r t) t

variable {t t' : List R} {p : R → Bool} {f : R → R} {r : R}

theorem store_eq_ok (h : Consistent t) : store t = .ok t := if_pos h

theorem store_eq_ok_iff : store t = .ok t' ↔ Consistent t ∧ t = t' := by
  unfold store
  split_ifs with h
  · simp [h]
  · simp [h]

/-- A table that was written back is consistent. -/
theorem consistent_of_store (h : store t = .ok t') : Consistent t' := by
  obtain ⟨hcons, rfl⟩ := store_eq_ok_iff.mp h
  exact hcons

theorem updateMany_eq_ok_iff :
    updateMany p f t = .ok t' ↔ Consistent (mapWhere p f t) ∧ mapWhere p f t = t' :=
  store_eq_ok_iff

theorem update_eq_ok_iff :
    update p f t = .ok t' ↔
      (∃ r ∈ t, p r = true) ∧ Consistent (mapWhere p f t) ∧ mapWhere p f t = t' := by
  unfold update
  by_cases h : t.any p
  · rw [if_pos h, store_eq_ok_iff]
    simp only [List.any_eq_true] at h
    simp [h]
  · rw [if_neg h]
    simp only [List.any_eq_true] at h
    simp [h]

theorem create_eq_ok_iff : create r t = .ok t' ↔ Consistent (t ++ [r]) ∧ t ++ [r] = t' :=
  store_eq_ok_iff

theorem Consistent.nil : Consistent ([] : List R) := List.Pairwise.nil

theorem Consistent.sublist (h : Consistent t) (hs : t'.Sublist t) : Consistent t' :=
  List.Pairwise.sublist hs h

/-- Two rows that may each be inserted may both be, unless they clash. -/
theorem Consistent.append_append {r' : R} (h : Consistent (t ++ [r])) (h' : Consistent (t ++ [r']))
    (hne : clash r r' = false) : Consistent (t ++ [r] ++ [r']) := by
  refine List.pairwise_append.mpr ⟨h, List.pairwise_singleton _ _, ?_⟩
  intro a ha b hb
  obtain rfl := List.mem_singleton.mp hb
  rcases List.mem_append.mp ha with ha | ha
  · exact (List.pairwise_append.mp h').2.2 a ha b hb
  · rwa [List.mem_singleton.mp ha]

section

variable (h : Consistent t)

include h

theorem Consistent.deleteMany : Consistent (deleteMany p t) :=
  h.sublist List.filter_sublist

theorem Consistent.perm (hp : t.Perm t') : Consistent t' := by
  refine List.Pairwise.perm h hp ?_
  intro a b hab
  rwa [Constrained.clash_comm]

/-- Distinct positions of a consistent table hold rows that do not clash. -/
theorem Consistent.eq_of_clash {a b : R} (ha : a ∈ t) (hb : b ∈ t) (hab : clash a b = true) :
    a = b := by
  by_contra hne
  have hsymm : Std.Symm fun x y : R => clash x y = false :=
    ⟨fun x y hxy => by rwa [Constrained.clash_comm]⟩
  have hsep := List.Pairwise.forall h ha hb hne
  simp [hab] at hsep

/-- A lookup by unique columns finds the row that has them. -/
theorem Consistent.find?_eq_some_iff (hp : ∀ a b, p a = true → p b = true → clash a b = true)
    {r : R} : t.find? p = some r ↔ r ∈ t ∧ p r = true := by
  refine ⟨fun hf => ⟨List.mem_of_find?_eq_some hf, List.find?_some hf⟩, fun ⟨hr, hpr⟩ => ?_⟩
  obtain ⟨r', hf⟩ := Option.isSome_iff_exists.mp (List.find?_isSome.mpr ⟨r, hr, hpr⟩)
  rw [hf, h.eq_of_clash (List.mem_of_find?_eq_some hf) hr (hp r' r (List.find?_some hf) hpr)]

/-- A delete by a key takes one row at most, and none that counts unless `c` says so. -/
theorem Consistent.countP_le_deleteMany {q : R → Bool} {c : Bool}
    (hp : ∀ a ∈ t, ∀ b ∈ t, p a = true → p b = true → clash a b = true)
    (hc : ∀ a ∈ t, p a = true → q a = true → c = true) :
    t.countP q ≤ (Relational.deleteMany p t).countP q + if c = true then 1 else 0 := by
  have hone : (t.filter p).length ≤ 1 := by
    match hrows : t.filter p with
    | [] => exact Nat.zero_le _
    | [_] => exact Nat.le_refl 1
    | a :: b :: rest =>
      have hmem (r : R) (hr : r ∈ a :: b :: rest) : r ∈ t ∧ p r = true :=
        List.mem_filter.mp (hrows ▸ hr)
      have hne : clash a b = false := by
        have hrest : Consistent (t.filter p) := h.sublist List.filter_sublist
        rw [hrows] at hrest
        exact (List.pairwise_cons.mp hrest).1 b List.mem_cons_self
      obtain ⟨ha, hpa⟩ := hmem a List.mem_cons_self
      obtain ⟨hb, hpb⟩ := hmem b (List.mem_cons_of_mem _ List.mem_cons_self)
      rw [hp a ha b hb hpa hpb] at hne
      cases hne
  have hsplit : t.countP q = (t.filter p).countP q + (Relational.deleteMany p t).countP q := by
    rw [Relational.deleteMany, List.countP_eq_countP_filter_add t q p]
  have hle : (t.filter p).countP q ≤ (t.filter p).length := List.countP_le_length
  split_ifs with htakes
  · omega
  · have hnone : (t.filter p).countP q = 0 := List.countP_eq_zero.mpr fun a ha hq =>
      htakes (hc a (List.mem_filter.mp ha).1 (List.mem_filter.mp ha).2 hq)
    omega

/-- A row rewrite under which clashes are invariant keeps the table consistent. -/
theorem Consistent.map {g : R → R}
    (hg : ∀ a ∈ t, ∀ b ∈ t, clash a b = false → clash (g a) (g b) = false) :
    Consistent (t.map g) := by
  unfold Consistent
  rw [List.pairwise_map]
  exact List.Pairwise.imp_of_mem (fun {a b} ha hb hab => hg a ha b hb hab) h

/-- A rewrite keeps the table consistent if a rewritten row clashes neither with
a rewritten row nor with one left alone. -/
theorem Consistent.mapWhere
    (hmove : ∀ a ∈ t, ∀ b ∈ t, p a = true → p b = true → clash a b = false →
      clash (f a) (f b) = false)
    (hstay : ∀ a ∈ t, ∀ b ∈ t, p a = true → p b = false → clash a b = false →
      clash (f a) b = false) :
    Consistent (mapWhere p f t) := by
  refine h.map fun a ha b hb hab => ?_
  cases hpa : p a <;> cases hpb : p b
  · simpa using hab
  · rw [Constrained.clash_comm] at hab ⊢
    simpa using hstay b hb a ha hpb hpa hab
  · simpa using hstay a ha b hb hpa hpb hab
  · simpa using hmove a ha b hb hpa hpb hab

/-- A rewrite of columns no constraint mentions keeps the table consistent. -/
theorem Consistent.mapWhere_of_clash (p : R → Bool) (hf : ∀ a b, clash (f a) b = clash a b) :
    Consistent (Relational.mapWhere p f t) := by
  refine h.mapWhere (fun a _ b _ _ _ hab => ?_) fun a _ b _ _ _ hab => (hf a b).trans hab
  rw [hf, Constrained.clash_comm, hf, Constrained.clash_comm, hab]

end

/-- Columns no constraint mentions do not matter for what may be inserted. -/
theorem consistent_mapWhere_append (p : R → Bool) (hf : ∀ a b, clash (f a) b = clash a b) :
    Consistent (Relational.mapWhere p f t ++ t') ↔ Consistent (t ++ t') := by
  have hif : ∀ a b, clash (if p a then f a else a) b = clash a b := by
    intro a b
    split_ifs
    · exact hf a b
    · rfl
  have hif' : ∀ a b, clash a (if p b then f b else b) = clash a b := by
    intro a b
    rw [Constrained.clash_comm, hif, Constrained.clash_comm]
  simp [Consistent, Relational.mapWhere, List.pairwise_append, List.pairwise_map, hif, hif']

theorem consistent_append_singleton :
    Consistent (t ++ [r]) ↔ Consistent t ∧ ∀ a ∈ t, clash a r = false := by
  simp [Consistent, List.pairwise_append]

@[simp] theorem creates_nil : creates [] t = .ok t := rfl

theorem creates_cons {rs : List R} :
    creates (r :: rs) t = (create r t).bind (creates rs) := rfl

/-- Inserts succeed when the final table is consistent. -/
theorem creates_eq_ok {rs : List R} (h : Consistent (t ++ rs)) :
    creates rs t = .ok (t ++ rs) := by
  induction rs generalizing t with
  | nil => simp
  | cons r rs ih =>
    have h' : Consistent ((t ++ [r]) ++ rs) := by simpa using h
    have hr : Consistent (t ++ [r]) := h'.sublist (List.sublist_append_left _ _)
    rw [creates_cons, create, store_eq_ok hr]
    simpa [Except.bind] using ih h'

/-- Inserts that succeed appended every row, and the outcome is consistent. -/
theorem creates_eq_ok_iff {rs : List R} (ht : Consistent t) :
    creates rs t = .ok t' ↔ Consistent (t ++ rs) ∧ t ++ rs = t' := by
  refine ⟨fun h => ?_, fun ⟨h, h'⟩ => h' ▸ creates_eq_ok h⟩
  induction rs generalizing t with
  | nil =>
    obtain rfl : t = t' := by simpa using h
    simpa using ht
  | cons r rs ih =>
    rw [creates_cons] at h
    cases hc : create r t with
    | error e => rw [hc] at h; cases h
    | ok t₁ =>
      rw [hc] at h
      obtain ⟨hr, rfl⟩ := create_eq_ok_iff.mp hc
      simpa using ih hr h

end Statements

/-! ### Rows that belong to an account -/

/-- Rows with a unique key and a (possibly absent) owning account. -/
class Owned (R : Type*) (A : outParam (Type*)) (K : outParam (Type*)) extends
    Constrained R where
  key : R → K
  owner : R → Option A
  setOwner : A → R → R
  key_setOwner : ∀ a r, key (setOwner a r) = key r := by intros; rfl
  owner_setOwner : ∀ a r, owner (setOwner a r) = some a := by intros; rfl
  setOwner_setOwner : ∀ a b r, setOwner a (setOwner b r) = setOwner a r := by intros; rfl
  setOwner_of_owner : ∀ a r, owner r = some a → setOwner a r = r := by
    rintro a ⟨⟩ h; cases h; rfl
  clash_of_key_eq : ∀ a b, key a = key b → clash a b = true := by
    rintro a b h; simp_all

/-- Owned rows none of whose unique constraints mentions the owner. -/
class Movable (R : Type*) (A : outParam (Type*)) (K : outParam (Type*)) extends
    Owned R A K where
  clash_setOwner : ∀ a r r', clash (setOwner a r) r' = clash r r' := by intros; rfl

export Owned (key owner setOwner)

attribute [simp] Owned.key_setOwner Owned.owner_setOwner Owned.setOwner_setOwner
  Movable.clash_setOwner

section Ownership

variable {R A K : Type*} [Owned R A K] {t t' : List R}

theorem Consistent.eq_of_key_eq (h : Consistent t) {a b : R} (ha : a ∈ t) (hb : b ∈ t)
    (hab : key a = key b) : a = b :=
  h.eq_of_clash ha hb (Owned.clash_of_key_eq a b hab)

theorem Consistent.nodup_keys (h : Consistent t) : (t.map (key : R → K)).Nodup := by
  rw [List.Nodup, List.pairwise_map]
  refine List.Pairwise.imp ?_ h
  intro a b hab hk
  rw [Owned.clash_of_key_eq a b hk] at hab
  exact Bool.noConfusion hab

theorem Consistent.nodup (h : Consistent t) : t.Nodup :=
  List.Nodup.of_map _ h.nodup_keys

/-- In a consistent table the keys of the selected rows select exactly these rows. -/
theorem Consistent.key_mem_findMany (h : Consistent t) {r : R} (hr : r ∈ t) {p : R → Bool} :
    key r ∈ (findMany p t).map key ↔ p r = true := by
  rw [List.mem_map]
  constructor
  · rintro ⟨r', hr', hk⟩
    obtain ⟨hmem, hp⟩ := mem_findMany.mp hr'
    rwa [← h.eq_of_key_eq hmem hr hk]
  · intro hp
    exact ⟨r, mem_findMany.mpr ⟨hr, hp⟩, rfl⟩

/-- The row with a given key. -/
def get? [DecidableEq K] (t : List R) (k : K) : Option R := t.find? fun r => key r = k

section Lookup

variable [DecidableEq K] {k : K}

theorem get?_eq_some_iff (h : Consistent t) {r : R} :
    get? t k = some r ↔ r ∈ t ∧ key r = k := by
  rw [get?, h.find?_eq_some_iff, decide_eq_true_eq]
  intro a b ha hb
  exact Owned.clash_of_key_eq a b ((of_decide_eq_true ha).trans (of_decide_eq_true hb).symm)

theorem get?_eq_none_iff : get? t k = none ↔ ∀ r ∈ t, key r ≠ k := by
  simp [get?]

end Lookup

/-- Deleting rows by key and inserting them again restores the table. -/
theorem Consistent.deleteMany_append_perm [DecidableEq K] (h : Consistent t) {rs : List R}
    (hrs : ∀ r ∈ rs, r ∈ t) (hnd : rs.Nodup) :
    (Relational.deleteMany (fun r => key r ∈ rs.map key) t ++ rs).Perm t := by
  have hsel : rs.Perm (t.filter fun r => key r ∈ rs.map key) := by
    rw [List.perm_ext_iff_of_nodup hnd (h.nodup.filter _)]
    intro r
    simp only [List.mem_filter, decide_eq_true_eq]
    constructor
    · intro hr
      exact ⟨hrs r hr, List.mem_map_of_mem hr⟩
    · rintro ⟨hr, hk⟩
      obtain ⟨r', hr', hkk⟩ := List.mem_map.mp hk
      rwa [← h.eq_of_key_eq (hrs r' hr') hr hkk]
  refine List.perm_append_comm.trans ?_
  exact (hsel.append_right _).trans (List.filter_append_perm _ t)

/-- Hand the rows with the listed keys to `d`. -/
def moveBack [DecidableEq K] (ks : List K) (d : A) (t : List R) : List R :=
  mapWhere (fun r => key r ∈ ks) (setOwner d) t

/-- Handing rows of `d` over by key and back by the same keys changes nothing. -/
theorem moveBack_mapWhere [DecidableEq K] {d s : A} {ks : List K}
    (h : ∀ r ∈ t, key r ∈ ks → owner r = some d) :
    moveBack ks d (mapWhere (fun r => key r ∈ ks) (setOwner s) t) = t := by
  unfold moveBack
  rw [mapWhere_mapWhere]
  conv_rhs => rw [← List.map_id t]
  refine List.map_congr_left fun r hr => ?_
  by_cases hk : key r ∈ ks
  · simp [hk, Owned.setOwner_of_owner _ _ (h r hr hk)]
  · simp [hk]

variable [DecidableEq A]

/-- Hand every row of `d` to `s`. -/
def repoint (d s : A) (t : List R) : List R :=
  mapWhere (fun r => owner r = some d) (setOwner s) t

/-- The keys of the rows `d` owns. -/
def keysOf (d : A) (t : List R) : List K := (findMany (fun r => owner r = some d) t).map key

variable {d s : A} {k : K}

theorem mem_keysOf : k ∈ keysOf d t ↔ ∃ r ∈ t, owner r = some d ∧ key r = k := by
  simp [keysOf, findMany, and_assoc]

/-- In a consistent table the keys `d` owns select exactly the rows `d` owns. -/
theorem Consistent.key_mem_keysOf (h : Consistent t) {r : R} (hr : r ∈ t) :
    key r ∈ keysOf d t ↔ owner r = some d :=
  (h.key_mem_findMany hr).trans decide_eq_true_iff

/-- Handing back the keys that were handed over restores the table. -/
theorem moveBack_repoint [DecidableEq K] (h : Consistent t) :
    moveBack (keysOf d t) d (repoint d s t) = t := by
  unfold moveBack repoint
  rw [mapWhere_mapWhere]
  conv_rhs => rw [← List.map_id t]
  refine List.map_congr_left fun r hr => ?_
  have hk := h.key_mem_keysOf (d := d) hr
  by_cases ho : owner r = some d
  · simp [ho, hk.mpr ho, Owned.setOwner_of_owner]
  · simp [ho, mt hk.mp ho]

end Ownership

section Movable

variable {R A K : Type*} [Movable R A K] {t : List R}

/-- Changing owners cannot break a constraint that does not mention them. -/
theorem Consistent.setOwner (h : Consistent t) (p : R → Bool) (a : A) :
    Consistent (Relational.mapWhere p (Owned.setOwner a) t) :=
  h.mapWhere_of_clash p (Movable.clash_setOwner a)

theorem Consistent.repoint [DecidableEq A] (h : Consistent t) (d s : A) :
    Consistent (repoint d s t) :=
  h.setOwner _ _

theorem Consistent.moveBack [DecidableEq K] (h : Consistent t) (ks : List K) (d : A) :
    Consistent (moveBack ks d t) :=
  h.setOwner _ _

end Movable

end Relational

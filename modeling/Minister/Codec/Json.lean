import Mathlib.Data.Rat.Floor

/-!
# JSON values as a program sees them

What a JavaScript program gets from `JSON.parse`, and what is left of a value once it has gone
through `JSON.stringify`. An object is the list of its members; the order of the members carries
no meaning, so two values are the same when every path leads to the same thing in both.

A number is a rational or an infinity. A literal too large for a double is read as an infinity, and
an infinity is written as `null`. What is computed from numbers is rounded where it is computed.
-/

namespace Codec

inductive Number
  | fin (q : Rat)
  | posInf
  | negInf
  deriving DecidableEq, Repr

namespace Number

/-- `Math.min`. -/
def min : Number → Number → Number
  | .negInf, _ | _, .negInf => .negInf
  | .posInf, y => y
  | x, .posInf => x
  | .fin p, .fin q => .fin (if q < p then q else p)

def lt : Number → Number → Prop
  | .negInf, y => y ≠ .negInf
  | .posInf, _ => False
  | .fin p, .fin q => p < q
  | .fin _, .posInf => True
  | .fin _, .negInf => False

section Order

variable {x y z : Number}

theorem min_eq_negInf_iff : min x y = .negInf ↔ x = .negInf ∨ y = .negInf := by
  cases x <;> cases y <;> simp [min]

theorem min_eq_posInf_iff : min x y = .posInf ↔ x = .posInf ∧ y = .posInf := by
  cases x <;> cases y <;> simp [min]

theorem min_eq_or : min x y = x ∨ min x y = y := by
  cases x with
  | posInf | negInf => cases y <;> simp [min]
  | fin p =>
    cases y with
    | posInf | negInf => simp [min]
    | fin q =>
      unfold min
      dsimp only
      split_ifs
      · exact .inr rfl
      · exact .inl rfl

theorem min_eq_left (h : ¬ lt y x) : min x y = x := by
  cases x <;> cases y <;> simp_all [min, lt]

theorem not_lt_min_left : ¬ lt x (min x y) := by
  cases x <;> cases y <;> simp [min, lt]
  split_ifs with h
  · exact h.le
  · exact le_refl _

theorem not_lt_min_right : ¬ lt y (min x y) := by
  cases x <;> cases y <;> simp [min, lt]
  split_ifs with h
  · exact le_refl _
  · exact not_lt.mp h

theorem eq_of_not_lt (hxy : ¬ lt x y) (hyx : ¬ lt y x) : x = y := by
  cases x <;> cases y <;> simp_all [lt]
  exact le_antisymm hyx hxy

theorem not_lt_trans (hxy : ¬ lt y x) (hyz : ¬ lt z y) : ¬ lt z x := by
  cases x <;> cases y <;> cases z <;> simp_all [lt]
  exact hxy.trans hyz

end Order

end Number

inductive Json
  | null
  | bool (b : Bool)
  | num (n : Number)
  | str (s : String)
  | arr (elems : List Json)
  | obj (members : List (String × Json))

/-! ### Members -/

/-- The value of a member. -/
def member (members : List (String × Json)) (key : String) : Option Json :=
  (members.find? fun m => m.1 = key).map Prod.snd

section Members

variable {members rest : List (String × Json)} {key other : String} {value : Json}

@[simp] theorem member_nil : member [] key = none := rfl

theorem member_cons_self : member ((key, value) :: rest) key = some value := by
  simp [member]

theorem member_cons_ne (h : other ≠ key) :
    member ((other, value) :: rest) key = member rest key := by
  simp [member, h]

theorem member_append :
    member (members ++ rest) key = (member members key).or (member rest key) := by
  unfold member
  rw [List.find?_append]
  cases List.find? (fun m => decide (m.1 = key)) members <;> rfl

/-- Members that are kept can still be read. -/
theorem member_filter_of_pos {p : String → Bool} (h : p key = true) :
    member (members.filter fun m => p m.1) key = member members key := by
  unfold member
  rw [List.find?_filter]
  congr 2
  funext m
  by_cases hm : m.1 = key
  · simp [hm, h]
  · simp [hm]

/-- Members that are dropped cannot. -/
theorem member_filter_of_neg {p : String → Bool} (h : p key = false) :
    member (members.filter fun m => p m.1) key = none := by
  unfold member
  rw [Option.map_eq_none_iff, List.find?_eq_none]
  intro m hm
  have hp := (List.mem_filter.mp hm).2
  intro heq
  rw [of_decide_eq_true heq, h] at hp
  cases hp

/-- An object literal that spreads `members` and then lists `extra`: what comes later replaces
what came before. -/
def assign (members extra : List (String × Json)) : List (String × Json) :=
  members.filter (fun m => (member extra m.1).isNone) ++ extra

theorem member_assign :
    member (assign members rest) key = (member rest key).or (member members key) := by
  unfold assign
  rw [member_append]
  cases hkey : member rest key with
  | none =>
    rw [member_filter_of_pos (p := fun k => (member rest k).isNone) (by simp [hkey])]
    simp
  | some value =>
    rw [member_filter_of_neg (p := fun k => (member rest k).isNone) (by simp [hkey])]
    rfl

end Members

namespace Json

/-! ### Paths -/

inductive Seg
  | key (k : String)
  | index (i : Nat)
  deriving DecidableEq, Repr

def get? : Json → Seg → Option Json
  | .obj members, .key k => member members k
  | .arr elems, .index i => elems[i]?
  | _, _ => none

/-- The value at the end of a path. -/
def at? (x : Json) : List Seg → Option Json
  | [] => some x
  | seg :: path => (x.get? seg).bind fun y => y.at? path

/-- The value at the end of a path of keys. -/
def keys? (x : Json) (path : List String) : Option Json := x.at? (path.map .key)

/-- A value without what is inside it. -/
inductive Shape
  | null
  | bool (b : Bool)
  | num (n : Number)
  | str (s : String)
  | arr (length : Nat)
  | obj
  deriving DecidableEq, Repr

def shape : Json → Shape
  | .null => .null
  | .bool b => .bool b
  | .num n => .num n
  | .str s => .str s
  | .arr elems => .arr elems.length
  | .obj _ => .obj

/-- Every path leads to the same thing in both values. -/
def Same (x y : Json) : Prop := ∀ path, (x.at? path).map shape = (y.at? path).map shape

/-- The same value, or none on either side. -/
def SameOption (x y : Option Json) : Prop :=
  ∀ path, (x.bind fun v => (v.at? path).map shape) = y.bind fun v => (v.at? path).map shape

section Same

variable {x y z : Json} {xs ys : List (String × Json)}

theorem Same.refl (x : Json) : Same x x := fun _ => rfl

theorem SameOption.refl (x : Option Json) : SameOption x x := fun _ => rfl

theorem sameOption_some_iff : SameOption (some x) (some y) ↔ Same x y := Iff.rfl

theorem at?_cons {seg : Seg} {path : List Seg} :
    x.at? (seg :: path) = (x.get? seg).bind fun v => v.at? path := rfl

/-- Objects are the same when each key has the same value in both. -/
theorem same_obj_iff :
    Same (.obj xs) (.obj ys) ↔ ∀ k, SameOption (member xs k) (member ys k) := by
  constructor
  · intro h k path
    have hpath := h (.key k :: path)
    rw [at?_cons, at?_cons, Option.map_bind, Option.map_bind] at hpath
    exact hpath
  · intro h path
    cases path with
    | nil => rfl
    | cons seg path =>
      rw [at?_cons, at?_cons, Option.map_bind, Option.map_bind]
      cases seg with
      | key k => exact h k path
      | index i => rfl

/-- A value that is there on one side is there on the other. -/
theorem SameOption.isSome_eq {x y : Option Json} (h : SameOption x y) : x.isSome = y.isSome := by
  have hnil := h []
  cases x <;> cases y <;> simp_all [at?]

theorem Same.shape_eq (h : Same x y) : x.shape = y.shape := Option.some.inj (h [])

end Same

/-! ### Writing -/

mutual

/-- The value that is read back from what `JSON.stringify` has written. -/
def written : Json → Json
  | .null => .null
  | .bool b => .bool b
  | .num (.fin q) => .num (.fin q)
  | .num .posInf | .num .negInf => .null
  | .str s => .str s
  | .arr elems => .arr (writtenElems elems)
  | .obj members => .obj (writtenMembers members)

def writtenElems : List Json → List Json
  | [] => []
  | x :: rest => x.written :: writtenElems rest

def writtenMembers : List (String × Json) → List (String × Json)
  | [] => []
  | (k, x) :: rest => (k, x.written) :: writtenMembers rest

end

section Written

variable {x y : Json} {members : List (String × Json)} {elems : List Json}

@[simp] theorem written_str {s : String} : (Json.str s).written = .str s := by
  rw [written]

@[simp] theorem written_fin {q : Rat} : (Json.num (.fin q)).written = .num (.fin q) := by
  rw [written]

@[simp] theorem written_obj : (Json.obj members).written = .obj (writtenMembers members) := by
  rw [written]

theorem getElem?_writtenElems {i : Nat} : (writtenElems elems)[i]? = elems[i]?.map written := by
  induction elems generalizing i with
  | nil => rw [writtenElems]; rfl
  | cons x rest ih =>
    rw [writtenElems]
    cases i with
    | zero => rfl
    | succ i => exact ih

theorem length_writtenElems : (writtenElems elems).length = elems.length := by
  induction elems with
  | nil => rw [writtenElems]
  | cons x rest ih => rw [writtenElems, List.length_cons, List.length_cons, ih]

@[simp] theorem member_writtenMembers {k : String} :
    member (writtenMembers members) k = (member members k).map written := by
  induction members with
  | nil => rw [writtenMembers]; rfl
  | cons m rest ih =>
    obtain ⟨k', x⟩ := m
    rw [writtenMembers]
    by_cases hk : k' = k
    · subst hk
      rw [member_cons_self, member_cons_self, Option.map_some]
    · rw [member_cons_ne hk, member_cons_ne hk, ih]

theorem get?_written {seg : Seg} : x.written.get? seg = (x.get? seg).map written := by
  cases x with
  | num n => cases n <;> rw [written] <;> rfl
  | arr elems =>
    rw [written]
    cases seg with
    | key k => rfl
    | index i => exact getElem?_writtenElems
  | obj members =>
    rw [written]
    cases seg with
    | key k => exact member_writtenMembers
    | index i => rfl
  | _ => rw [written]; rfl

/-- What a path leads to in the written value. -/
theorem at?_written {path : List Seg} : x.written.at? path = (x.at? path).map written := by
  induction path generalizing x with
  | nil => rfl
  | cons seg path ih =>
    rw [at?_cons, at?_cons, get?_written]
    cases x.get? seg with
    | none => rfl
    | some y => exact ih

def Shape.written : Shape → Shape
  | .num .posInf | .num .negInf => .null
  | x => x

theorem shape_written : x.written.shape = x.shape.written := by
  cases x with
  | num n => cases n <;> rw [written] <;> rfl
  | arr elems =>
    rw [written]
    exact congrArg Shape.arr length_writtenElems
  | _ => rw [written]; rfl

/-- Writing keeps values the same. -/
theorem Same.written (h : Same x y) : Same x.written y.written := by
  intro path
  have hshape (v : Json) : (v.written.at? path).map shape =
      ((v.at? path).map shape).map Shape.written := by
    rw [at?_written, Option.map_map, Option.map_map]
    congr 1
    funext w
    exact shape_written
  rw [hshape, hshape, h path]

end Written

end Json

end Codec

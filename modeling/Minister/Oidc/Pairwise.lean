import Minister.Codec.Separated

/-!
# Pairwise subjects and token ids

`lib/pairwise-backend.ts` derives the subjects and token ids of badges, per client and per share
link, from texts under one key. The texts join their fields by colons and have no common form.
Ids have no colon, which keeps them apart.
-/

namespace Minister.Pairwise

open Codec

inductive PairwiseFamily
  | sub
  | jti
  | sharelinkSub
  | sharelinkJti
  deriving DecidableEq, Repr

def pairwiseSubInput (userId clientId : String) : String := userId ++ ":" ++ clientId

def pairwiseJtiInput (badgeId clientId : String) : String := "jti:" ++ badgeId ++ ":" ++ clientId

def shareLinkPairwiseSubInput (userId shareLinkId : String) : String :=
  "sharelink:" ++ userId ++ ":" ++ shareLinkId

def shareLinkPairwiseJtiInput (badgeId shareLinkId : String) : String :=
  "jti:sharelink:" ++ badgeId ++ ":" ++ shareLinkId

def PairwiseFamily.input : PairwiseFamily → String → String → String
  | .sub => pairwiseSubInput
  | .jti => pairwiseJtiInput
  | .sharelinkSub => shareLinkPairwiseSubInput
  | .sharelinkJti => shareLinkPairwiseJtiInput

/-- `/^mc_[A-Za-z0-9_-]+$/` or one of `LEGACY_CLIENT_IDS`. -/
def isValidClientId (clientId : String) : Bool :=
  clientId = "demo_client" ||
    match clientId.toList with
    | 'm' :: 'c' :: '_' :: rest =>
      rest ≠ [] && rest.all fun c => c.isAlphanum || c = '_' || c = '-'
    | _ => false

/-- Ids have no colon, and the client id of a client is valid. -/
def PairwiseFamily.Admits : PairwiseFamily → String → String → Prop
  | .sub, id, clientId | .jti, id, clientId => ':' ∉ id.toList ∧ isValidClientId clientId = true
  | .sharelinkSub, id, shareLinkId | .sharelinkJti, id, shareLinkId =>
    ':' ∉ id.toList ∧ ':' ∉ shareLinkId.toList

/-- What stands between the colons. -/
def PairwiseFamily.fields : PairwiseFamily → String → String → List String
  | .sub, a, b => [a, b]
  | .jti, a, b => ["jti", a, b]
  | .sharelinkSub, a, b => ["sharelink", a, b]
  | .sharelinkJti, a, b => ["jti", "sharelink", a, b]

section Inputs

variable {f f' : PairwiseFamily} {a b a' b' : String}

theorem notMem_of_isValidClientId (h : isValidClientId a = true) : ':' ∉ a.toList := by
  rw [isValidClientId, Bool.or_eq_true] at h
  rcases h with hlegacy | hre
  · rw [of_decide_eq_true hlegacy]
    decide
  · split at hre
    · rename_i rest heq
      rw [heq]
      intro hmem
      have hcolon : ':' ∈ rest := by simpa using hmem
      exact absurd (List.all_eq_true.mp (Bool.and_eq_true_iff.mp hre).2 _ hcolon) (by decide)
    · cases hre

theorem PairwiseFamily.Admits.notMem (h : f.Admits a b) : ∀ x ∈ f.fields a b, ':' ∉ x.toList := by
  cases f with
  | sub | jti => simpa [fields] using ⟨h.1, notMem_of_isValidClientId h.2⟩
  | sharelinkSub | sharelinkJti => simpa [fields, Admits] using h

theorem PairwiseFamily.input_eq : f.input a b = ":".intercalate (f.fields a b) := by
  cases f <;> simp [input, fields, pairwiseSubInput, pairwiseJtiInput, shareLinkPairwiseSubInput,
    shareLinkPairwiseJtiInput, String.intercalate_cons_cons, ← String.append_assoc]

/-- The families differ in the number of their fields or in the first. -/
theorem PairwiseFamily.fields_inj (h : f.fields a b = f'.fields a' b') :
    f = f' ∧ a = a' ∧ b = b' := by
  cases f <;> cases f' <;> simp_all [fields]

end Inputs

/-- Over all ids without a colon and all valid client ids, the four inputs are injective in their
two arguments and no two of them give the same text. So neither are two derived values equal, if
the keyed hash `derive` has no collisions; for the texts themselves it is the identity. -/
theorem pairwiseInput_inj {α : Type} {derive : String → α} (hderive : Function.Injective derive)
    {f f' : PairwiseFamily} {a b a' b' : String} (h : f.Admits a b) (h' : f'.Admits a' b')
    (heq : derive (f.input a b) = derive (f'.input a' b')) : f = f' ∧ a = a' ∧ b = b' := by
  have htext := hderive heq
  rw [PairwiseFamily.input_eq, PairwiseFamily.input_eq] at htext
  have hne (f : PairwiseFamily) (a b : String) : f.fields a b ≠ [] := by cases f <;> nofun
  exact PairwiseFamily.fields_inj
    (intercalate_inj htext rfl (hne f a b) (hne f' a' b') h.notMem h'.notMem)

/-- A badge id that reads like a prefix does not move a token id into the other family. -/
theorem pairwiseInput_sharelink :
    pairwiseJtiInput "sharelink" "mc_a" ≠ shareLinkPairwiseJtiInput "b" "mc_a" := by
  intro h
  have hjti : PairwiseFamily.jti.Admits "sharelink" "mc_a" := ⟨by decide, by decide⟩
  have hlink : PairwiseFamily.sharelinkJti.Admits "b" "mc_a" := ⟨by decide, by decide⟩
  exact absurd (pairwiseInput_inj Function.injective_id hjti hlink h).1 (by decide)

end Minister.Pairwise

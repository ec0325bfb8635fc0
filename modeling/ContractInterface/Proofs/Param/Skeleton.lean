import ContractInterface.Proofs.Item.WellFormed
import ContractInterface.Proofs.Param.Nesting
import Mathlib.Data.List.Basic

/-! The shape of a parameter and what signatures show of it. What is shown is a type again, and the
type has the whole shape in it. -/
namespace ContractInterface

/-- The types in a parameter, without names, annotations and marks. -/
inductive Skeleton
  | mk (ty : String) (members : List Skeleton)

namespace Param
open Sequencing Text TypeSpec

mutual

def skeleton : Param → Skeleton
  | ⟨_, ty, components, _, _⟩ => .mk ty (skeletons components)

def skeletons : List Param → List Skeleton
  | [] => []
  | p :: ps => skeleton p :: skeletons ps

end

theorem skeletons_eq_map (ps : List Param) : skeletons ps = ps.map skeleton := by
  induction ps with
  | nil => rfl
  | cons p ps ih => simp [skeletons, ih]

@[simp] theorem skeleton_asEventInput (p : Param) (indexed : Bool) :
    (p.asEventInput indexed).skeleton = p.skeleton := by
  cases p
  rfl

@[simp] theorem canonicalType_asEventInput (p : Param) (indexed : Bool) :
    (p.asEventInput indexed).canonicalType = p.canonicalType := by
  cases p
  rfl

mutual

/-- Nothing but the shape is shown. -/
theorem canonicalType_congr {p q : Param} (h : p.skeleton = q.skeleton) :
    p.canonicalType = q.canonicalType := by
  obtain ⟨_, ty, ps, _, _⟩ := p
  obtain ⟨_, ty', qs, _, _⟩ := q
  rw [skeleton, skeleton, Skeleton.mk.injEq] at h
  obtain ⟨rfl, hmembers⟩ := h
  rw [canonicalType, canonicalType, canonicalTypes_congr hmembers]

theorem canonicalTypes_congr {ps qs : List Param} (h : skeletons ps = skeletons qs) :
    canonicalTypes ps = canonicalTypes qs := by
  cases ps with
  | nil =>
    cases qs with
    | nil => rfl
    | cons q qs => cases h
  | cons p ps =>
    cases qs with
    | nil => cases h
    | cons q qs =>
      rw [skeletons, skeletons, List.cons.injEq] at h
      rw [canonicalTypes, canonicalTypes, canonicalType_congr h.1, canonicalTypes_congr h.2]

end

end Param

namespace TypeSpec

mutual

/-- The shape that a type shows. The dimensions of a tuple are kept as they are written. -/
def skeleton : TypeSpec → Skeleton
  | named span _ _ => .mk span []
  | tuple span body members _ =>
    .mk (.ofList (Param.tupleWord.toList ++ span.toList.drop body.length)) (skeletons members)

def skeletons : List TypeSpec → List Skeleton
  | [] => []
  | t :: ts => skeleton t :: skeletons ts

end

theorem skeletons_eq_map (ts : List TypeSpec) : skeletons ts = ts.map skeleton := by
  induction ts with
  | nil => rfl
  | cons t ts ih => simp [skeletons, ih]

theorem skeleton_tuple (stem ds : List Char) (members : List TypeSpec)
    (sizes : List (Option Nat)) :
    (tuple (.ofList (stem ++ ds)) (.ofList stem) members sizes).skeleton =
      .mk (.ofList (Param.tupleWord.toList ++ ds)) (members.map skeleton) := by
  simp [skeleton, skeletons_eq_map]

/-- Types parted by commas alone are the members of a tuple and keep what is known of them. -/
theorem exists_body {α : Type} {n : Nat} {text : α → List Char} {R : α → TypeSpec → Prop}
    {xs : List α} (h : ∀ x ∈ xs, ∃ t, Written n (text x) t ∧ R x t) :
    ∃ ts, Body n ([','].intercalate (xs.map text)) ts ∧ List.Forall₂ R xs ts := by
  obtain ⟨ts, hts⟩ := Sequencing.exists_forall₂ h
  exact ⟨ts, .of_forall₂ (List.forall₂_map_left_iff.mpr (hts.imp fun _ _ h => h.1)),
    hts.imp fun _ _ h => h.2⟩

theorem exists_body_of_skeleton {α : Type} {n : Nat} {text : α → List Char}
    {shape : α → Skeleton} {xs : List α}
    (h : ∀ x ∈ xs, ∃ t, Written n (text x) t ∧ t.skeleton = shape x) :
    ∃ ts, Body n ([','].intercalate (xs.map text)) ts ∧ ts.map skeleton = xs.map shape := by
  obtain ⟨ts, hb, hts⟩ := exists_body h
  exact ⟨ts, hb, Sequencing.map_eq_map_of_forall₂ hts⟩

end TypeSpec

namespace Param
open TypeSpec

/-- The types of a list as they stand between the parentheses. -/
theorem toList_intercalate_canonicalTypes (ps : List Param) :
    (",".intercalate (canonicalTypes ps)).toList =
      [','].intercalate (ps.map fun p => p.canonicalType.toList) := by
  rw [canonicalTypes_eq_map, String.toList_intercalate, List.map_map]
  rfl

section

variable {name : String} {components : List Param} {internalType : Option InternalType}
  {indexed : Option Bool} {ds : List Char} {sizes : List (Option Nat)}

theorem toList_canonicalType_tuple (dims : Dimensions ds sizes) :
    (canonicalType ⟨name, .ofList (tupleWord.toList ++ ds), components, internalType,
      indexed⟩).toList =
        '(' :: [','].intercalate (components.map fun p => p.canonicalType.toList) ++ ')' :: ds := by
  rw [canonicalType, String.toList_ofList, tupleSuffix?_tuple dims,
    ← toList_intercalate_canonicalTypes]
  simp

theorem toList_canonicalType_named {word : List Char} (identifier : Identifier.isValid word = true)
    (ne_tuple : word ≠ tupleWord.toList) (dims : Dimensions ds sizes) :
    (canonicalType ⟨name, .ofList (word ++ ds), components, internalType, indexed⟩).toList =
      word ++ ds := by
  rw [canonicalType, String.toList_ofList, tupleSuffix?_named identifier ne_tuple dims]
  exact String.toList_ofList

theorem nesting_tuple (dims : Dimensions ds sizes) :
    nesting ⟨name, .ofList (tupleWord.toList ++ ds), components, internalType, indexed⟩ =
      nestingOf components + 1 := by
  rw [nesting, String.toList_ofList, tupleSuffix?_tuple dims]
  rfl

theorem nesting_named {word : List Char} (identifier : Identifier.isValid word = true)
    (ne_tuple : word ≠ tupleWord.toList) (dims : Dimensions ds sizes) :
    nesting ⟨name, .ofList (word ++ ds), components, internalType, indexed⟩ = 0 := by
  rw [nesting, String.toList_ofList, tupleSuffix?_named identifier ne_tuple dims]
  rfl

end

/-- What is shown of a well-formed parameter is a type of the same shape, with as many tuples
inside one another. -/
theorem WellFormed.exists_written_nesting {n : Nat} {p : Param} (h : WellFormed n p) :
    ∃ t, Written n p.canonicalType.toList t ∧ t.skeleton = p.skeleton ∧ t.nesting = p.nesting := by
  induction h with
  | @mk n name ty components internalType name_ok type_ok annotated members ih =>
    generalize hc : (!components.isEmpty) = hasComponents at type_ok
    cases type_ok with
    | @tuple ds sizes dims =>
      obtain ⟨ts, hb, hts⟩ := exists_body ih
      have hshape := skeleton_tuple ('(' :: [','].intercalate (components.map fun p =>
        p.canonicalType.toList) ++ [')']) ds ts sizes
      rw [← List.append_cons, Sequencing.map_eq_map_of_forall₂ (hts.imp fun _ _ h => h.1),
        ← skeletons_eq_map] at hshape
      rw [toList_canonicalType_tuple dims, nesting_tuple dims,
        ← nestingOf_eq_of_forall₂ (hts.imp fun _ _ h => h.2)]
      exact ⟨_, .tuple .absent hb dims, hshape, rfl⟩
    | @named word ds sizes identifier ne_tuple dims =>
      obtain rfl : components = [] := by simpa using hc
      rw [toList_canonicalType_named identifier ne_tuple dims,
        nesting_named identifier ne_tuple dims]
      exact ⟨_, .named identifier dims, rfl, rfl⟩

theorem WellFormed.exists_written {n : Nat} {p : Param} (h : WellFormed n p) :
    ∃ t, Written n p.canonicalType.toList t ∧ t.skeleton = p.skeleton := by
  obtain ⟨t, ht, hshape, -⟩ := h.exists_written_nesting
  exact ⟨t, ht, hshape⟩

theorem WellFormed.canonicalType_eq_iff {n : Nat} {p q : Param} (hp : WellFormed n p)
    (hq : WellFormed n q) : p.canonicalType = q.canonicalType ↔ p.skeleton = q.skeleton := by
  refine ⟨fun h => ?_, canonicalType_congr⟩
  obtain ⟨t, ht, hpt⟩ := hp.exists_written
  obtain ⟨t', ht', hqt⟩ := hq.exists_written
  rw [h] at ht
  rw [← hpt, ← hqt, ht.unique ht']

end Param

end ContractInterface

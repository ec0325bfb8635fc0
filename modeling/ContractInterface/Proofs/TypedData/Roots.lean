import Mathlib
import ContractInterface.Proofs.TypedData.Outline

/-! Types that are read again from their texts. Wherever a type stood inside another one, its text
alone is read as the same tree, so that a struct, which keeps the texts of its types only, has lost
none of the names in them. -/
namespace ContractInterface

namespace TypeSpec

/-- The nodes of a tree: the tree itself, and the nodes of its members. -/
inductive Node : TypeSpec → TypeSpec → Prop
  | self {t : TypeSpec} : Node t t
  | member {span body : String} {ts : List TypeSpec} {sizes : List (Option Nat)} {t u : TypeSpec}
      (mem : t ∈ ts) (below : Node t u) : Node (.tuple span body ts sizes) u

theorem Body.exists_written {n : Nat} {body : List Char} {ts : List TypeSpec} (h : Body n body ts)
    {t : TypeSpec} (ht : t ∈ ts) : ∃ cs, Written n cs t := by
  induction ts generalizing body with
  | nil => cases ht
  | cons t' ts ih =>
    cases h with
    | @last _ _ cs _ _ _ member _ =>
      obtain rfl := List.mem_singleton.mp ht
      exact ⟨cs, member⟩
    | @cons _ _ cs _ _ _ _ _ _ member _ others =>
      rcases List.mem_cons.mp ht with rfl | ht
      · exact ⟨cs, member⟩
      · exact ih others ht

/-- A node has a derivation of its own, inside of no more tuples than there may be. -/
theorem Written.exists_of_node {n : Nat} {cs : List Char} {t u : TypeSpec} (h : Written n cs t)
    (hu : Node t u) : ∃ m ds, m ≤ n ∧ Written m ds u := by
  induction hu generalizing n cs with
  | self => exact ⟨n, cs, Nat.le_refl n, h⟩
  | member mem _ ih =>
    cases h with
    | tuple _ inside _ =>
      obtain ⟨ds, hmember⟩ := inside.exists_written mem
      obtain ⟨m, es, hle, hw⟩ := ih hmember
      exact ⟨m, es, Nat.le_succ_of_le hle, hw⟩

/-- Every node of a type is read again from its span. -/
theorem parse_span_of_node {s : String} {t u : TypeSpec} (h : parse s = .ok t) (hu : Node t u) :
    parse u.span = .ok u := by
  obtain ⟨m, ds, hle, hw⟩ := (parse_eq_ok.mp h).exists_of_node hu
  rw [hw.span_eq]
  exact hw.parse_ofList hle

end TypeSpec

namespace TypedData
open Sequencing

theorem StructField.rootNames_toField {text : String} {m : Member}
    (h : TypeSpec.parse text = .ok m.ty) : m.toField.rootNames = .ok m.ty.rootNames := by
  rw [StructField.rootNames, Member.toField, TypeSpec.parse_span h]
  rfl

/-- A type and every type inside it is read again from its text. A struct that was made of a
definition, read on its own or in a row of them, therefore finds in the texts of its fields the
names that were read in the types of the members, in order. -/
theorem Struct.rootNames_of_reread :
    (∀ text t, TypeSpec.parse text = .ok t → ∀ u, TypeSpec.Node t u →
      TypeSpec.parse u.span = .ok u) ∧
    ∀ text d, Definition.parse text = .ok d ∨
        (∃ r, Reading.parse text = .ok r ∧ d ∈ r.definitions) →
      ∀ s, ofDefinition d = .ok s →
        List.Forall₂ (fun m f => f.ty = m.ty.span ∧ f.rootNames = .ok m.ty.rootNames)
          d.members s.fields := by
  refine ⟨fun text t h u => TypeSpec.parse_span_of_node h, fun text d hd s hs => ?_⟩
  have hread : d.TypesRead := by
    rcases hd with hd | ⟨r, hr, hmem⟩
    · exact Definition.typesRead hd
    · exact Reading.typesRead hr d hmem
  obtain ⟨-, rfl⟩ := Definition.ofDefinition_eq_ok.mp hs
  rw [Definition.toStruct, List.forall₂_map_right_iff, List.forall₂_same]
  intro m hm
  obtain ⟨text, ht⟩ := hread m hm
  exact ⟨rfl, StructField.rootNames_toField ht⟩

/-- A type with blanks in it, and with a size that has a zero in front. -/
def spaced : TypeSpec :=
  .tuple "(A[02] , uint256)[]" "(A[02] , uint256)"
    [.named "A[02]" "A" [some 2], .named "uint256" "uint256" []] [none]

/-- The type stands inside of another one, and in the first of two fields. -/
theorem Struct.rootNames_of_reread_spaced :
    ∃ t d s, TypeSpec.parse " tuple( (A[02] , uint256)[] ,B)[3]" = .ok t ∧
      TypeSpec.Node t spaced ∧ TypeSpec.parse spaced.span = .ok spaced ∧
      Definition.parse "S((A[02] , uint256)[] a,B b)" = .ok d ∧ ofDefinition d = .ok s ∧
      d.members.map (·.ty) = [spaced, .named "B" "B" []] ∧
      s.fields.map (·.rootNames) = [.ok ["A", "uint256"], .ok ["B"]] := by
  obtain ⟨nodes, structs⟩ := rootNames_of_reread
  have ht : TypeSpec.parse " tuple( (A[02] , uint256)[] ,B)[3]" = .ok
      (.tuple "tuple( (A[02] , uint256)[] ,B)[3]" "tuple( (A[02] , uint256)[] ,B)"
        [spaced, .named "B" "B" []] [some 3]) := by cbv
  have hd : Definition.parse "S((A[02] , uint256)[] a,B b)" = .ok
      ⟨"S((A[02] , uint256)[] a,B b)", "S", [⟨spaced, "a"⟩, ⟨.named "B" "B" [], "b"⟩]⟩ := by cbv
  have hs : ofDefinition ⟨"S((A[02] , uint256)[] a,B b)", "S",
      [⟨spaced, "a"⟩, ⟨.named "B" "B" [], "b"⟩]⟩ =
        .ok ⟨"S", [⟨spaced.span, "a"⟩, ⟨"B", "b"⟩]⟩ := by cbv
  have hnode : TypeSpec.Node (.tuple "tuple( (A[02] , uint256)[] ,B)[3]"
      "tuple( (A[02] , uint256)[] ,B)" [spaced, .named "B" "B" []] [some 3]) spaced :=
    .member (List.mem_cons_self ..) .self
  refine ⟨_, _, _, ht, hnode, nodes _ _ ht _ hnode, hd, hs, rfl, ?_⟩
  cases structs _ _ (.inl hd) _ hs with
  | cons first others =>
    cases others with
    | cons second _ => rw [List.map_cons, first.2, List.map_cons, second.2]; rfl

end TypedData

end ContractInterface

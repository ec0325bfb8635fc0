import ContractInterface.Proofs.Param.Canonical
import ContractInterface.Proofs.Param.Skeleton

/-! What the canonical type takes from the text of a type. Tuples are written anew from their
members and sizes, but the types in them that are no tuples keep their texts, and in these the
digits of a size. -/
namespace ContractInterface

/-- A type without the texts that it was read from. -/
inductive Tree
  | named (name : String) (sizes : List (Option Nat))
  | tuple (members : List Tree) (sizes : List (Option Nat))

namespace Tree

mutual

/-- The types in a tree that are no tuples, from left to right, each written anew. -/
def leaves : Tree → List String
  | named name sizes => [name ++ String.join (sizes.map TypeSpec.dimensionText)]
  | tuple members _ => leavesOf members

def leavesOf : List Tree → List String
  | [] => []
  | t :: ts => leaves t ++ leavesOf ts

end

end Tree

namespace TypeSpec
open Text

mutual

def tree : TypeSpec → Tree
  | named _ name sizes => .named name sizes
  | tuple _ _ members sizes => .tuple (trees members) sizes

def trees : List TypeSpec → List Tree
  | [] => []
  | t :: ts => tree t :: trees ts

end

mutual

/-- The texts of the types in a type that are no tuples, from left to right. -/
def leaves : TypeSpec → List String
  | named span _ _ => [span]
  | tuple _ _ members _ => leavesOf members

def leavesOf : List TypeSpec → List String
  | [] => []
  | t :: ts => leaves t ++ leavesOf ts

end

mutual

theorem length_leaves (t : TypeSpec) : t.leaves.length = t.tree.leaves.length := by
  cases t with
  | named span name sizes => rfl
  | tuple span body members sizes => exact length_leavesOf members

theorem length_leavesOf (ts : List TypeSpec) :
    (leavesOf ts).length = (Tree.leavesOf (trees ts)).length := by
  cases ts with
  | nil => rfl
  | cons t ts =>
    rw [leavesOf, trees, Tree.leavesOf, List.length_append, List.length_append, length_leaves t,
      length_leavesOf ts]

end

mutual

/-- A text without leading zeros is written anew as it was read. -/
theorem Written.leaves_eq {n : Nat} {cs : List Char} {t : TypeSpec} (h : Written n cs t)
    (hzero : ∀ leaf ∈ t.leaves, ¬ LeadingZero leaf.toList) : t.leaves = t.tree.leaves := by
  cases h with
  | @named _ name ds sizes _ dims =>
    have hds : ¬ LeadingZero ds := by
      intro hds
      refine hzero (.ofList (name ++ ds)) (by simp [leaves]) ?_
      rw [String.toList_ofList]
      exact hds.trans (List.suffix_append name ds).isInfix
    rw [leaves, tree, Tree.leaves, String.ofList_append, ← dims.toList_join_eq hds,
      String.ofList_toList]
  | tuple _ inside _ => exact inside.leavesOf_eq hzero

theorem Body.leavesOf_eq {n : Nat} {body : List Char} {ts : List TypeSpec} (h : Body n body ts)
    (hzero : ∀ leaf ∈ leavesOf ts, ¬ LeadingZero leaf.toList) :
    leavesOf ts = Tree.leavesOf (trees ts) := by
  cases h with
  | empty _ => rfl
  | @last _ _ _ _ t _ member _ =>
    have ht := member.leaves_eq fun leaf hleaf => hzero leaf (by simp [leavesOf, hleaf])
    rw [leavesOf, trees, Tree.leavesOf, ht]
    rfl
  | @cons _ _ _ _ _ t t' ts _ member _ others =>
    have ht := member.leaves_eq fun leaf hleaf => hzero leaf (by
      rw [leavesOf]
      exact List.mem_append_left _ hleaf)
    have hts := others.leavesOf_eq fun leaf hleaf => hzero leaf (by
      rw [leavesOf]
      exact List.mem_append_right _ hleaf)
    rw [leavesOf, trees, Tree.leavesOf, ht, hts]

end

end TypeSpec

namespace Param
open Text TypeSpec

mutual

/-- Parameters of the same tree have the same shape exactly if the texts are the same wherever
they are kept. -/
theorem skeleton_ofTypeSpec_eq_iff {annotate annotate' : TypeSpec → Option InternalType}
    {name name' : String} {t t' : TypeSpec} (h : t.tree = t'.tree) :
    (ofTypeSpec annotate name t).skeleton = (ofTypeSpec annotate' name' t').skeleton ↔
      t.leaves = t'.leaves := by
  cases t with
  | named span root sizes =>
    cases t' with
    | named span' root' sizes' => simp [ofTypeSpec, skeleton, skeletons, TypeSpec.leaves]
    | tuple _ _ _ _ => cases h
  | tuple span body members sizes =>
    cases t' with
    | named _ _ _ => cases h
    | tuple span' body' members' sizes' =>
      rw [tree, tree, Tree.tuple.injEq] at h
      obtain ⟨hmembers, rfl⟩ := h
      have hsuffix : (tuple span body members sizes).arraySuffix =
          (tuple span' body' members' sizes).arraySuffix := rfl
      have hshapes : skeletons (ofMembers annotate members) =
          skeletons (ofMembers annotate' members') ↔ leavesOf members = leavesOf members' :=
        skeletons_ofMembers_eq_iff hmembers
      rw [ofTypeSpec, ofTypeSpec, skeleton, skeleton, hsuffix, Skeleton.mk.injEq, hshapes]
      exact and_iff_right rfl

theorem skeletons_ofMembers_eq_iff {annotate annotate' : TypeSpec → Option InternalType}
    {ts ts' : List TypeSpec} (h : trees ts = trees ts') :
    skeletons (ofMembers annotate ts) = skeletons (ofMembers annotate' ts') ↔
      leavesOf ts = leavesOf ts' := by
  cases ts with
  | nil =>
    cases ts' with
    | nil => exact iff_of_true rfl rfl
    | cons _ _ => cases h
  | cons t ts =>
    cases ts' with
    | nil => cases h
    | cons t' ts' =>
      rw [trees, trees, List.cons.injEq] at h
      have hlength : t.leaves.length = t'.leaves.length := by
        rw [length_leaves, length_leaves, h.1]
      have ht : (ofTypeSpec annotate "" t).skeleton = (ofTypeSpec annotate' "" t').skeleton ↔
          t.leaves = t'.leaves := skeleton_ofTypeSpec_eq_iff h.1
      have hts : skeletons (ofMembers annotate ts) = skeletons (ofMembers annotate' ts') ↔
          leavesOf ts = leavesOf ts' := skeletons_ofMembers_eq_iff h.2
      rw [ofMembers, ofMembers, skeletons, skeletons, List.cons.injEq, ht, hts, leavesOf, leavesOf]
      constructor
      · rintro ⟨ht, hts⟩
        rw [ht, hts]
      · intro happend
        exact List.append_inj happend hlength

end

theorem canonicalType_ofTypeSpec_eq_iff {annotate annotate' : TypeSpec → Option InternalType}
    {name name' : String} {n : Nat} {cs cs' : List Char} {t t' : TypeSpec} (hw : Written n cs t)
    (hw' : Written n cs' t') (h : t.tree = t'.tree) :
    (ofTypeSpec annotate name t).canonicalType = (ofTypeSpec annotate' name' t').canonicalType ↔
      t.leaves = t'.leaves := by
  have hplain (annotate : TypeSpec → Option InternalType) (name : String) (t : TypeSpec) :
      (ofTypeSpec annotate name t).canonicalType =
        (ofTypeSpec (fun _ => none) "" t).canonicalType :=
    canonicalType_congr ((skeleton_ofTypeSpec_eq_iff rfl).mpr rfl)
  have wellFormed {cs : List Char} {t : TypeSpec} (hw : Written n cs t) :
      WellFormed (n + 1) (ofTypeSpec (fun _ => none) "" t) :=
    wellFormed_ofTypeSpec (fun _ _ h => by cases h) hw (.inl rfl)
  rw [hplain annotate, hplain annotate', (wellFormed hw).canonicalType_eq_iff (wellFormed hw'),
    skeleton_ofTypeSpec_eq_iff h]

/-- Types of the same tree have the same canonical type exactly if those in them that are no
tuples have the same texts, one by one. They have if no size in these texts has a zero in front,
however the tuples are spelled. -/
theorem canonicalType_eq_iff_leaves {s s' : String} {t t' : TypeSpec}
    (hs : TypeSpec.parse s = .ok t) (hs' : TypeSpec.parse s' = .ok t') (h : t.tree = t'.tree)
    (name name' : String) :
    ∃ p p', Param.parse s name = .ok p ∧ Param.parse s' name' = .ok p' ∧
      (p.canonicalType = p'.canonicalType ↔ t.leaves = t'.leaves) ∧
      ((∀ leaf ∈ t.leaves ++ t'.leaves, ¬ LeadingZero leaf.toList) →
        p.canonicalType = p'.canonicalType) := by
  have hw := TypeSpec.parse_eq_ok.mp hs
  have hw' := TypeSpec.parse_eq_ok.mp hs'
  have hiff : (ofTypeSpec (fun _ => none) name t).canonicalType =
      (ofTypeSpec (fun _ => none) name' t').canonicalType ↔ t.leaves = t'.leaves :=
    canonicalType_ofTypeSpec_eq_iff hw hw' h
  refine ⟨_, _, by rw [Param.parse, hs]; rfl, by rw [Param.parse, hs']; rfl, hiff, ?_⟩
  intro hzero
  rw [hiff, hw.leaves_eq fun leaf hleaf => hzero leaf (List.mem_append_left _ hleaf),
    hw'.leaves_eq fun leaf hleaf => hzero leaf (List.mem_append_right _ hleaf), h]

theorem canonicalType_eq_iff_leaves_tuple :
    ∃ t t' p p', TypeSpec.parse "tuple( A )[02]" = .ok t ∧ TypeSpec.parse "(A)[2]" = .ok t' ∧
      t.tree = t'.tree ∧ Param.parse "tuple( A )[02]" "" = .ok p ∧
      Param.parse "(A)[2]" "" = .ok p' ∧ p.canonicalType = p'.canonicalType := by
  have htwo : Dimensions ['[', '2', ']'] [some 2] :=
    @Dimensions.single ['2'] (by simp) (by simp) (by decide) (by decide)
  have hzero : Dimensions ['[', '0', '2', ']'] [some 2] :=
    @Dimensions.single ['0', '2'] (by simp) (by simp) (by decide) (by decide)
  have hblank : AllBlank [' '] := by
    intro c hc
    cases List.mem_singleton.mp hc
    decide
  have hmember := @Written.named 63 ['A'] [] [] (by decide) .nil
  have hs := (Written.tuple .present (.last hblank hmember hblank) hzero).parse_ofList
    (Nat.le_refl maxNesting)
  have hs' := (Written.tuple .absent (.last .nil hmember .nil) htwo).parse_ofList
    (Nat.le_refl maxNesting)
  have htext : String.ofList (['t', 'u', 'p', 'l', 'e'] ++
      '(' :: ([' '] ++ (['A'] ++ []) ++ [' ']) ++ ')' :: ['[', '0', '2', ']']) =
        "tuple( A )[02]" := by decide +kernel
  have htext' : String.ofList ([] ++
      '(' :: ([] ++ (['A'] ++ []) ++ []) ++ ')' :: ['[', '2', ']']) = "(A)[2]" := by
    decide +kernel
  rw [htext] at hs
  rw [htext'] at hs'
  obtain ⟨p, p', hp, hp', -, hplain⟩ := canonicalType_eq_iff_leaves hs hs' rfl "" ""
  exact ⟨_, _, p, p', hs, hs', rfl, hp, hp', hplain (by decide +kernel)⟩

/-- A zero in front of a size is shown if the type is no tuple, though it is not shown behind a
tuple. -/
theorem canonicalType_ne_of_leadingZero :
    ∃ t t' p p', TypeSpec.parse "bool[02]" = .ok t ∧ TypeSpec.parse "bool[2]" = .ok t' ∧
      t.tree = t'.tree ∧ Param.parse "bool[02]" "" = .ok p ∧ Param.parse "bool[2]" "" = .ok p' ∧
      p.canonicalType = "bool[02]" ∧ p'.canonicalType = "bool[2]" ∧
      ∃ q, Param.parse "()[02]" "" = .ok q ∧ q.canonicalType = "()[2]" := by
  have hbool : Identifier.isValid ['b', 'o', 'o', 'l'] = true := by decide
  have htwo : Dimensions ['[', '2', ']'] [some 2] :=
    @Dimensions.single ['2'] (by simp) (by simp) (by decide) (by decide)
  have hzero : Dimensions ['[', '0', '2', ']'] [some 2] :=
    @Dimensions.single ['0', '2'] (by simp) (by simp) (by decide) (by decide)
  have hs : TypeSpec.parse "bool[02]" = .ok _ :=
    (Written.named hbool hzero).parse_ofList (Nat.le_refl maxNesting)
  have hs' : TypeSpec.parse "bool[2]" = .ok _ :=
    (Written.named hbool htwo).parse_ofList (Nat.le_refl maxNesting)
  have hq : TypeSpec.parse "()[02]" = .ok _ :=
    (written_empty_tuple hzero).parse_ofList (Nat.le_refl maxNesting)
  refine ⟨_, _, _, _, hs, hs', rfl, by rw [Param.parse, hs]; rfl, by rw [Param.parse, hs']; rfl,
    by decide +kernel, by decide +kernel, _, by rw [Param.parse, hq]; rfl, by decide +kernel⟩

end Param

end ContractInterface

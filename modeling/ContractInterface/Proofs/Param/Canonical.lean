import ContractInterface.Proofs.Param.OfTypeSpec

/-! Types that are spelled in the one way in which signatures show them: without blanks, without
the word `tuple` in front of a parenthesis, and with sizes that have no zero in front. -/
namespace ContractInterface

namespace TypeSpec
open Text

/-- Some size in the text has a zero in front. -/
def LeadingZero (cs : List Char) : Prop := ['[', '0'] <:+: cs

instance (cs : List Char) : Decidable (LeadingZero cs) :=
  inferInstanceAs (Decidable (['[', '0'] <:+: cs))

/-- A canonically spelled type, in which no more than the given number of tuples are open at once.
The name `tuple` is left out, as it would be shown as an empty tuple. -/
inductive Canonical : Nat → List Char → Prop
  | named {n : Nat} {name ds : List Char} {sizes : List (Option Nat)}
      (identifier : Identifier.isValid name = true) (ne_tuple : name ≠ Param.tupleWord.toList)
      (dims : Dimensions ds sizes) (plain : ¬ LeadingZero ds) : Canonical n (name ++ ds)
  | tuple {n : Nat} {pieces : List (List Char)} {ds : List Char} {sizes : List (Option Nat)}
      (members : ∀ p ∈ pieces, Canonical n p) (dims : Dimensions ds sizes)
      (plain : ¬ LeadingZero ds) :
      Canonical (n + 1) ('(' :: [','].intercalate pieces ++ ')' :: ds)

theorem Size.toList_dimensionText {digits : List Char} {size : Option Nat} (h : Size digits size)
    (hzero : digits.head? ≠ some '0') : (dimensionText size).toList = '[' :: digits ++ [']'] := by
  cases h with
  | unbounded => rfl
  | bounded nonempty digit limit positive =>
    simp [dimensionText, Nat.toList_repr, toDigits_asciiNumber digit nonempty hzero]

/-- Dimensions without leading zeros are written again as they were read. -/
theorem Dimensions.toList_join_eq {ds : List Char} {sizes : List (Option Nat)}
    (h : Dimensions ds sizes) (hzero : ¬ LeadingZero ds) :
    (String.join (sizes.map dimensionText)).toList = ds := by
  induction h with
  | nil => rfl
  | @cons digits ds size sizes first _ ih =>
    have hfirst : digits.head? ≠ some '0' := by
      intro h0
      obtain ⟨r, rfl⟩ := List.head?_eq_some_iff.mp h0
      exact hzero ⟨[], r ++ ']' :: ds, by simp⟩
    have hrest : ¬ LeadingZero ds := fun hds =>
      hzero (hds.trans ⟨'[' :: digits ++ [']'], [], by simp⟩)
    simp [first.toList_dimensionText hfirst, ih hrest]

end TypeSpec

namespace Param
open TypeSpec

variable {annotate : TypeSpec → Option InternalType}

theorem ofMembers_eq_map (ts : List TypeSpec) :
    ofMembers annotate ts = ts.map (ofTypeSpec annotate "") := by
  induction ts with
  | nil => rfl
  | cons t ts ih => simp [ofMembers, ih]

theorem canonicalType_named {name span root : String} {sizes : List (Option Nat)}
    (h : tupleSuffix? span.toList = none) :
    (ofTypeSpec annotate name (.named span root sizes)).canonicalType = span := by
  rw [ofTypeSpec, canonicalType, h]

theorem canonicalType_tuple {name span body : String} {members : List TypeSpec} {ds : List Char}
    {sizes : List (Option Nat)} (h : Dimensions ds sizes) :
    (ofTypeSpec annotate name (.tuple span body members sizes)).canonicalType =
      "(" ++ ",".intercalate (members.map fun t => (ofTypeSpec annotate "" t).canonicalType) ++
        ")" ++ String.join (sizes.map dimensionText) := by
  have hsuffix : tupleSuffix? (tupleWord ++ (tuple span body members sizes).arraySuffix).toList =
      some (String.join (sizes.map dimensionText)).toList := by
    rw [String.toList_append]
    exact tupleSuffix?_tuple h.toList_join
  rw [ofTypeSpec, canonicalType, hsuffix, canonicalTypes_eq_map, ofMembers_eq_map, List.map_map]
  simp only [Function.comp_def, String.ofList_toList]

end Param

namespace TypeSpec.Canonical
open Text Param

variable {n : Nat} {cs : List Char}

/-- A canonically spelled type is read, and shown again as it was spelled. -/
theorem exists_written (h : Canonical n cs) :
    ∃ t, Written n cs t ∧
      ∀ annotate name, (ofTypeSpec annotate name t).canonicalType = .ofList cs := by
  induction h with
  | named identifier ne_tuple dims _ =>
    refine ⟨_, .named identifier dims, fun annotate name => canonicalType_named ?_⟩
    rw [String.toList_ofList]
    exact tupleSuffix?_named identifier ne_tuple dims
  | @tuple n pieces ds sizes _ dims plain ih =>
    obtain ⟨ts, hts⟩ := Sequencing.exists_forall₂ ih
    have hb : Body n ([','].intercalate pieces) ts := .of_forall₂ (hts.imp fun _ _ h => h.1)
    refine ⟨_, .tuple .absent hb dims, fun annotate name => ?_⟩
    have hmembers : ts.map (fun t => (ofTypeSpec annotate "" t).canonicalType) =
        pieces.map String.ofList :=
      Sequencing.map_eq_map_of_forall₂ (hts.imp fun _ _ h => h.2 annotate "")
    rw [canonicalType_tuple dims, hmembers]
    apply String.toList_injective
    simp [dims.toList_join_eq plain, Function.comp_def]

end TypeSpec.Canonical

end ContractInterface

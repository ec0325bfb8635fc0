import ContractInterface.Param.Json
import ContractInterface.Proofs.TypeSpec.Reading

/-! The types of parameters in JSON. They are spelled by an identifier and dimensions, and where
the identifier is `tuple`, and only there, the parameter may have components. -/
namespace ContractInterface.Param
open Sequencing Text TypeSpec

/-- The text is the type of a parameter, which has components or not. -/
inductive TypeText : String → Bool → Prop
  | tuple {ds : List Char} {sizes : List (Option Nat)} (dims : Dimensions ds sizes)
      (hasComponents : Bool) : TypeText (.ofList (tupleWord.toList ++ ds)) hasComponents
  | named {name ds : List Char} {sizes : List (Option Nat)}
      (identifier : Identifier.isValid name = true) (ne_tuple : name ≠ tupleWord.toList)
      (dims : Dimensions ds sizes) : TypeText (.ofList (name ++ ds)) false

theorem toList_tupleWord : tupleWord.toList = ['t', 'u', 'p', 'l', 'e'] := rfl

theorem tupleSuffix?_eq_some {cs suffix : List Char} :
    tupleSuffix? cs = some suffix ↔
      cs = tupleWord.toList ++ suffix ∧ (suffix = [] ∨ ∃ r, suffix = '[' :: r) := by
  rw [toList_tupleWord]
  constructor
  · intro h
    unfold tupleSuffix? at h
    split at h
    · split at h
      · cases h
        exact ⟨rfl, .inl rfl⟩
      · cases h
        exact ⟨rfl, .inr ⟨_, rfl⟩⟩
      · cases h
    · cases h
  · rintro ⟨rfl, rfl | ⟨r, rfl⟩⟩ <;> rfl

theorem tupleSuffix?_tuple {ds : List Char} {sizes : List (Option Nat)} (h : Dimensions ds sizes) :
    tupleSuffix? (tupleWord.toList ++ ds) = some ds :=
  tupleSuffix?_eq_some.mpr ⟨rfl, h.eq_nil_or_cons⟩

theorem tupleSuffix?_named {name ds : List Char} {sizes : List (Option Nat)}
    (hn : Identifier.isValid name = true) (hne : name ≠ tupleWord.toList)
    (hd : Dimensions ds sizes) : tupleSuffix? (name ++ ds) = none := by
  rw [Option.eq_none_iff_forall_not_mem]
  intro suffix h
  obtain ⟨heq, hsuffix⟩ := tupleSuffix?_eq_some.mp h
  have not_part {cs : List Char} (hc : cs = [] ∨ ∃ r, cs = '[' :: r) (c : Char) (r : List Char)
      (h : cs = c :: r) : Identifier.isPart c = false := by
    rcases hc with rfl | ⟨s, rfl⟩
    · cases h
    · cases h
      rfl
  have hsplit := Identifier.split?_of_isValid hn (not_part hd.eq_nil_or_cons)
  rw [heq, Identifier.split?_of_isValid (by decide) (not_part hsuffix)] at hsplit
  exact hne (congrArg Prod.fst (Option.some.inj hsplit)).symm

theorem parens_append (ds : List Char) :
    "()" ++ String.ofList ds = .ofList ('(' :: ')' :: ds) := by
  apply String.ext
  simp

/-- An empty tuple with the given dimensions. -/
theorem written_empty_tuple {ds : List Char} {sizes : List (Option Nat)} (h : Dimensions ds sizes) :
    Written maxNesting ('(' :: ')' :: ds)
      (.tuple (.ofList ('(' :: ')' :: ds)) (.ofList ['(', ')']) [] sizes) :=
  .tuple .absent (.empty AllBlank.nil) h

theorem exists_dimensions_of_written {ds : List Char} {t : TypeSpec}
    (h : Written maxNesting ('(' :: ')' :: ds) t) : ∃ sizes, Dimensions ds sizes := by
  have hread := h.read_append Stops.nil
  have hbody : tupleBody? ('(' :: ')' :: ds) = some (')' :: ds) := rfl
  rw [List.append_nil, show maxNesting = 63 + 1 from rfl,
    read_succ_of_tupleBody?_eq_some hbody] at hread
  obtain ⟨⟨ts, stem⟩, hin, hread⟩ := bind_eq_ok.mp hread
  rw [inside, dropBlank_cons (by decide)] at hin
  cases hin
  obtain ⟨⟨sizes, rest⟩, hd, hread⟩ := bind_eq_ok.mp hread
  cases hread
  obtain ⟨ds', rfl, hds⟩ := dimensions_sound hd
  exact ⟨sizes, by simpa using hds⟩

/-- A type that is its own span has no blanks around it. -/
theorem written_of_span_eq {s : String} {t : TypeSpec} (h : TypeSpec.parse s = .ok t)
    (hs : t.span = s) : Written maxNesting s.toList t := by
  have hw := parse_eq_ok.mp h
  rw [hw.span_eq] at hs
  have htrim := congrArg String.toList hs
  rw [String.toList_ofList] at htrim
  rwa [htrim] at hw

theorem typeText_of_checkType {ty : String} {hasComponents : Bool}
    (h : checkType ty hasComponents = .ok ()) : TypeText ty hasComponents := by
  unfold checkType at h
  split at h
  · next suffix hsuffix =>
    obtain ⟨t, ht, h⟩ := bind_eq_ok.mp h
    split at h
    · next hspan =>
      have hw := written_of_span_eq ht hspan
      rw [parens_append, String.toList_ofList] at hw
      obtain ⟨sizes, hd⟩ := exists_dimensions_of_written hw
      rw [← String.ofList_toList (s := ty), (tupleSuffix?_eq_some.mp hsuffix).1]
      exact .tuple hd hasComponents
    · cases h
  · next hsuffix =>
    obtain ⟨t, ht, h⟩ := bind_eq_ok.mp h
    split at h
    · cases h
    · next htuple =>
      split at h
      · cases h
      · next hcomponents =>
        split at h
        · next hspan =>
          have hw := written_of_span_eq ht hspan
          generalize hcs : ty.toList = cs at hw hsuffix
          rw [← String.ofList_toList (s := ty), hcs, Bool.eq_false_iff.mpr hcomponents]
          cases hw with
          | named identifier dims =>
            refine .named identifier ?_ dims
            rintro rfl
            rw [tupleSuffix?_tuple dims] at hsuffix
            cases hsuffix
          | tuple _ _ _ => exact absurd rfl htuple
        · cases h

theorem TypeText.checkType {ty : String} {hasComponents : Bool} (h : TypeText ty hasComponents) :
    checkType ty hasComponents = .ok () := by
  cases h with
  | tuple dims b =>
    rw [Param.checkType, String.toList_ofList, tupleSuffix?_tuple dims]
    dsimp only
    rw [parens_append, (written_empty_tuple dims).parse_ofList (Nat.le_refl _)]
    exact if_pos rfl
  | named identifier ne_tuple dims =>
    rw [Param.checkType, String.toList_ofList, tupleSuffix?_named identifier ne_tuple dims]
    dsimp only
    rw [(Written.named identifier dims).parse_ofList (Nat.zero_le _)]
    exact if_pos rfl

/-- The check lets through exactly the types of parameters. -/
theorem checkType_eq_ok {ty : String} {hasComponents : Bool} :
    checkType ty hasComponents = .ok () ↔ TypeText ty hasComponents :=
  ⟨typeText_of_checkType, TypeText.checkType⟩

end ContractInterface.Param

import ContractInterface.Proofs.Names
import ContractInterface.Proofs.Param.TypeText

/-! Well-formed parameters. Those that are decoded from JSON are well-formed. -/
namespace ContractInterface.Param
open Sequencing Text TypeSpec

/-- A parameter that is no event input, with at most the given number of levels, each of which has
a name that may stand in JSON, a type spelled as in JSON, and an annotation that was read. -/
inductive WellFormed : Nat → Param → Prop
  | mk {n : Nat} {name ty : String} {components : List Param}
      {internalType : Option InternalType}
      (name_ok : name = "" ∨ Identifier.isValid name.toList = true)
      (type_ok : TypeText ty (!components.isEmpty))
      (annotated : ∀ t, internalType = some t → ∃ s, InternalType.parse s = t)
      (members : ∀ c ∈ components, WellFormed n c) :
      WellFormed (n + 1) ⟨name, ty, components, internalType, none⟩

theorem nameField_eq_ok {fields : List (Utf16 × Json)} {name : String}
    (h : nameField fields = .ok name) : name = "" ∨ Identifier.isValid name.toList = true := by
  unfold nameField at h
  split at h
  · cases h
    exact .inl rfl
  · cases h
    exact .inl rfl
  · exact (checkName_eq_ok.mp h).2.imp_left (·.2)
  · cases h

theorem internalTypeField_eq_ok {fields : List (Utf16 × Json)} {internalType : Option InternalType}
    (h : internalTypeField fields = .ok internalType) {t : InternalType}
    (ht : internalType = some t) : ∃ s, InternalType.parse s = t := by
  unfold internalTypeField at h
  split at h
  · cases h
    cases ht
  · cases h
    cases ht
  · next s _ =>
    cases h
    exact ⟨s, Option.some.inj ht⟩
  · cases h

theorem readType_eq_ok {ty : Utf16} {s : String} {hasComponents : Bool} :
    readType ty hasComponents = .ok s ↔ ty = Utf16.ofString s ∧ TypeText s hasComponents := by
  unfold readType
  cases h : ty.toString? with
  | none => simp [Utf16.ne_ofString_of_toString?_eq_none h]
  | some t =>
    obtain rfl := Utf16.toString?_eq_some_iff.mp h
    dsimp only
    rw [map_eq_ok]
    constructor
    · rintro ⟨_, hc, rfl⟩
      exact ⟨rfl, checkType_eq_ok.mp hc⟩
    · rintro ⟨ht, hs⟩
      obtain rfl := Utf16.ofString_injective ht
      exact ⟨(), checkType_eq_ok.mpr hs, rfl⟩

/-- An object is decoded exactly if each field that is looked at is. -/
theorem decode_succ_eq_ok {n : Nat} {fields : List (Utf16 × Json)} {p : Param} :
    decode (n + 1) (.object fields) = .ok p ↔
      ∃ ty items, typeField fields = .ok ty ∧ nameField fields = .ok p.name ∧
        componentsField fields = .ok items ∧ readType ty (!items.isEmpty) = .ok p.ty ∧
        internalTypeField fields = .ok p.internalType ∧
        items.mapM (decode n) = .ok p.components ∧ p.indexed = none := by
  constructor
  · intro h
    obtain ⟨ty, hty, h⟩ := bind_eq_ok.mp h
    obtain ⟨name, hname, h⟩ := bind_eq_ok.mp h
    obtain ⟨items, hitems, h⟩ := bind_eq_ok.mp h
    obtain ⟨s, hs, h⟩ := bind_eq_ok.mp h
    obtain ⟨internalType, hinternal, h⟩ := bind_eq_ok.mp h
    obtain ⟨components, hcomponents, h⟩ := bind_eq_ok.mp h
    cases h
    exact ⟨ty, items, hty, hname, hitems, hs, hinternal, hcomponents, rfl⟩
  · rintro ⟨ty, items, hty, hname, hitems, hs, hinternal, hcomponents, hindexed⟩
    obtain ⟨name, s, components, internalType, indexed⟩ := p
    cases hindexed
    rw [decode, hty, hname, hitems]
    simp only [bind, Except.bind]
    rw [hs, hinternal]
    dsimp only
    rw [hcomponents]

/-- What is decoded is well-formed. -/
theorem wellFormed_of_decode {n : Nat} {x : Json} {p : Param} (h : decode n x = .ok p) :
    WellFormed n p := by
  induction n generalizing x p with
  | zero => cases h
  | succ n ih =>
    cases x with
    | object fields =>
      obtain ⟨ty, items, -, hname, -, htype, hinternal, hcomponents, hindexed⟩ :=
        decode_succ_eq_ok.mp h
      obtain ⟨name, s, components, internalType, indexed⟩ := p
      cases hindexed
      have hempty : items.isEmpty = components.isEmpty := by
        have hlen := length_eq_of_mapM_eq_ok hcomponents
        cases items <;> cases components <;> simp at hlen ⊢
      refine .mk (nameField_eq_ok hname) ?_ (fun t => internalTypeField_eq_ok hinternal) ?_
      · rw [← hempty]
        exact (readType_eq_ok.mp htype).2
      · intro c hc
        obtain ⟨y, _, hy⟩ := exists_of_mem_of_mapM_eq_ok hcomponents hc
        exact ih hy
    | _ => cases h

end ContractInterface.Param

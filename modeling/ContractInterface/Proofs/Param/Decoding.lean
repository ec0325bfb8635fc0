import ContractInterface.Proofs.InternalType
import ContractInterface.Proofs.Param.WellFormed

/-! Parameters written to JSON are decoded again. What is left out where it is empty or absent is
what decoding takes for granted. -/
namespace ContractInterface

namespace Param
open Sequencing

/-- A parameter is what its fields are; a recursive structure has no such rule of itself. -/
@[simp] theorem mk_fields (p : Param) :
    Param.mk p.name p.ty p.components p.internalType p.indexed = p := by
  cases p
  rfl

/-- Every field of a parameter is found again under its key. -/
theorem exists_toJson (p : Param) :
    ∃ fields, p.toJson = .object fields ∧
      Json.field? fields "name" = some (.string p.name) ∧
      Json.field? fields "type" = some (.string p.ty) ∧
      Json.field? fields "indexed" = p.indexed.map Json.bool ∧
      Json.field? fields "components" =
        (if p.components = [] then none else some (.array (p.components.map toJson))) ∧
      Json.field? fields "internalType" = p.internalType.map (fun t => .string t.text) := by
  obtain ⟨name, ty, components, internalType, indexed⟩ := p
  refine ⟨_, rfl, ?_⟩
  cases components <;> cases internalType <;> cases indexed <;>
    simp [Json.field?, Json.field, List.lookup_cons, toJsons_eq_map]

/-- What is written is decoded again, whether or not it is an input of an event. -/
theorem decode_toJson {n : Nat} {p : Param} (h : WellFormed n p) (indexed : Option Bool) :
    decode n { p with indexed }.toJson = .ok p := by
  induction h generalizing indexed with
  | @mk n name ty components internalType name_ok type_ok annotated members ih =>
    obtain ⟨fields, hfields, hname, htype, -, hcomponents, hinternal⟩ :=
      exists_toJson ⟨name, ty, components, internalType, indexed⟩
    dsimp only at hfields hname htype hcomponents hinternal ⊢
    have name_eq : nameField fields = .ok name := by
      rw [nameField, hname]
      exact checkName_eq_ok.mpr ⟨rfl, name_ok.imp_left fun h => ⟨rfl, h⟩⟩
    have type_eq : typeField fields = .ok (Utf16.ofString ty) := by
      rw [typeField, htype]
    have components_eq : componentsField fields = .ok (components.map toJson) := by
      rw [componentsField, hcomponents]
      cases components <;> rfl
    have internal_eq : internalTypeField fields = .ok internalType := by
      rw [internalTypeField, hinternal]
      cases internalType with
      | none => rfl
      | some t =>
        obtain ⟨s, rfl⟩ := annotated t rfl
        simp [InternalType.text_parse]
    have readType_eq :
        readType (Utf16.ofString ty) (!(components.map toJson).isEmpty) = .ok ty := by
      rw [List.isEmpty_map]
      exact readType_eq_ok.mpr ⟨rfl, type_ok⟩
    have members_eq : (components.map toJson).mapM (decode n) = .ok components :=
      mapM_map_eq_ok fun c hc => by simpa using ih c hc c.indexed
    rw [hfields]
    exact decode_succ_eq_ok.mpr
      ⟨_, _, type_eq, name_eq, components_eq, readType_eq, internal_eq, members_eq, rfl⟩

theorem indexedField_toJson (p : Param) (indexed : Bool) :
    indexedField (p.asEventInput indexed).toJson = .ok indexed := by
  obtain ⟨fields, hfields, -, -, hindexed, -, -⟩ := exists_toJson (p.asEventInput indexed)
  rw [hfields, indexedField, hindexed]
  rfl

variable {p : Param}

theorem ofJson_toJson (h : WellFormed (maxNesting + 1) p) : ofJson p.toJson = .ok p := by
  simpa [ofJson] using decode_toJson h p.indexed

/-- The mark of an input of an event says nothing about the parameter itself. -/
theorem ofJson_asEventInput (h : WellFormed (maxNesting + 1) p) (indexed : Bool) :
    ofJson (p.asEventInput indexed).toJson = .ok p := decode_toJson h (some indexed)

/-- An input of an event is a well-formed parameter together with its mark. -/
def WellFormedInput (p : Param) : Prop :=
  ∃ q indexed, WellFormed (maxNesting + 1) q ∧ p = q.asEventInput indexed

theorem wellFormedInput_of_eventInputOfJson {x : Json} {p : Param}
    (h : eventInputOfJson x = .ok p) : p.WellFormedInput := by
  obtain ⟨q, hq, h⟩ := bind_eq_ok.mp h
  obtain ⟨indexed, _, h⟩ := bind_eq_ok.mp h
  cases h
  exact ⟨q, indexed, wellFormed_of_decode hq, rfl⟩

/-- What is decoded as an input of an event is decoded again once it is written. -/
theorem WellFormedInput.eventInputOfJson_toJson {p : Param} (h : p.WellFormedInput) :
    eventInputOfJson p.toJson = .ok p := by
  obtain ⟨q, indexed, hq, rfl⟩ := h
  rw [eventInputOfJson, ofJson_asEventInput hq, indexedField_toJson]
  rfl

end Param

end ContractInterface

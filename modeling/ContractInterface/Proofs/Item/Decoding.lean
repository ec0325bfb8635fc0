import ContractInterface.Proofs.Item.WellFormed

/-! Items written to JSON are decoded again, and are then written as the same JSON. -/
namespace ContractInterface

variable {fields : List (Utf16 × Json)}

theorem Mutability.ofFields_name {m : Mutability} (default : Mutability)
    (h : Json.field? fields "stateMutability" = some (.string m.name)) :
    ofFields fields default = .ok m := by
  rw [ofFields, h]
  simp

namespace Item
open Sequencing

theorem tagField_tag {kind : Kind} (h : Json.field? fields "type" = some (.string kind.tag)) :
    tagField fields = .ok kind := by
  rw [tagField, h]
  simp

theorem nameField?_string {kind : Kind} {name : String}
    (h : Json.field? fields "name" = some (.string name))
    (hname : Identifier.isValid name.toList = true) :
    nameField? kind fields = .ok (some name) := by
  rw [nameField?, h]
  exact map_eq_ok.mpr ⟨name, checkName_eq_ok.mpr ⟨rfl, .inr hname⟩, rfl⟩

theorem nameField?_absent {kind : Kind} (h : Json.field? fields "name" = none) :
    nameField? kind fields = .ok none := by
  rw [nameField?, h]

/-- A list is decoded again if its members are. -/
theorem paramsField_toJsons {decode : Json → Except Failure Param} {key : String}
    {ps : List Param} (h : Json.field? fields key = some (.array (Param.toJsons ps)))
    (hps : ∀ p ∈ ps, decode p.toJson = .ok p) : paramsField decode key fields = .ok ps := by
  rw [paramsField, h, Param.toJsons_eq_map]
  exact mapM_map_eq_ok hps

theorem anonymousField_bool {x : Bool} (h : Json.field? fields "anonymous" = some (.bool x)) :
    anonymousField fields = .ok x := by
  rw [anonymousField, h]

theorem ofJson_object {kind : Kind} {name? : Option String}
    (htag : Json.field? fields "type" = some (.string kind.tag))
    (hname : nameField? kind fields = .ok name?) :
    ofJson (.object fields) = ofFields fields name? kind := by
  rw [ofJson, tagField_tag htag]
  simp only [bind, Except.bind, hname]

/-- What is written is decoded again, for each kind from the fields it writes. -/
theorem WellFormed.ofJson_toJson {x : Item} (h : x.WellFormed) : ofJson x.toJson = .ok x := by
  have decoded {ps : List Param} (hps : ∀ p ∈ ps, p.WellFormed (maxNesting + 1)) :
      ∀ p ∈ ps, Param.ofJson p.toJson = .ok p := fun p hp => Param.ofJson_toJson (hps p hp)
  cases h with
  | @constructor c inputs =>
    rw [toJson, ConstructorItem.toJson, ofJson_object rfl (nameField?_absent rfl), ofFields,
      paramsField_toJsons rfl (decoded inputs), Mutability.ofFields_name _ rfl]
    rfl
  | fallback m =>
    rw [toJson, ofJson_object rfl (nameField?_absent rfl), ofFields, Mutability.ofFields_name _ rfl]
    rfl
  | receive m =>
    rw [toJson, ofJson_object rfl (nameField?_absent rfl), ofFields, Mutability.ofFields_name _ rfl]
    rfl
  | @function f name inputs outputs =>
    rw [toJson, FunctionItem.toJson, ofJson_object rfl (nameField?_string rfl name), ofFields,
      paramsField_toJsons rfl (decoded inputs), paramsField_toJsons rfl (decoded outputs),
      Mutability.ofFields_name _ rfl]
    rfl
  | @event e name inputs =>
    rw [toJson, EventItem.toJson, ofJson_object rfl (nameField?_string rfl name), ofFields,
      anonymousField_bool rfl,
      paramsField_toJsons rfl (fun p hp => (inputs p hp).eventInputOfJson_toJson)]
    rfl
  | @error e name inputs =>
    rw [toJson, ErrorItem.toJson, ofJson_object rfl (nameField?_string rfl name), ofFields,
      paramsField_toJsons rfl (decoded inputs)]
    rfl

/-- Items, parameters and inputs of events, whatever way they came about, are got back from the
JSON that they are written as. What is got back is written as the same JSON. -/
theorem ofJson_toJson_of_obtained :
    (∀ x : Item, x.Obtained →
      ofJson x.toJson = .ok x ∧ (ofJson x.toJson).map toJson = .ok x.toJson) ∧
    (∀ p : Param, p.Obtained →
      Param.ofJson p.toJson = .ok p ∧ (Param.ofJson p.toJson).map Param.toJson = .ok p.toJson) ∧
    (∀ (x : Json) (p : Param), Param.eventInputOfJson x = .ok p →
      Param.eventInputOfJson p.toJson = .ok p ∧
        (Param.eventInputOfJson p.toJson).map Param.toJson = .ok p.toJson) := by
  refine ⟨?_, ?_, ?_⟩
  · intro x h
    have hx := h.wellFormed.ofJson_toJson
    exact ⟨hx, by rw [hx]; rfl⟩
  · intro p h
    have hp := Param.ofJson_toJson h.wellFormed
    exact ⟨hp, by rw [hp]; rfl⟩
  · intro x p h
    have hp := (Param.wellFormedInput_of_eventInputOfJson h).eventInputOfJson_toJson
    exact ⟨hp, by rw [hp]; rfl⟩

/-- An input of an event, a pair with an annotation. -/
def pairInput : Json :=
  .object [("type", .string "tuple[2]"), ("indexed", .bool true),
    ("components", .array [.object [("type", .string "address")],
      .object [("name", .string "fee"), ("type", .string "uint256")]]),
    ("internalType", .string "struct Pool.Pair[2]")]

theorem ofJson_toJson_swap :
    (∃ f, FunctionItem.parse "swap((address,uint256)[] orders,bool)(uint256)" = .ok f ∧
      ofJson (toJson (.function f)) = .ok (.function f)) ∧
    (∃ p, Param.ofJson pairInput = .ok p ∧ Param.ofJson p.toJson = .ok p) ∧
    (∃ p, Param.eventInputOfJson pairInput = .ok p ∧ Param.eventInputOfJson p.toJson = .ok p) := by
  obtain ⟨f, hf⟩ := exists_of_isSome_toOption
    (x := FunctionItem.parse "swap((address,uint256)[] orders,bool)(uint256)") (by decide +kernel)
  obtain ⟨p, hp⟩ := exists_of_isSome_toOption (x := Param.ofJson pairInput) (by decide +kernel)
  obtain ⟨q, hq⟩ :=
    exists_of_isSome_toOption (x := Param.eventInputOfJson pairInput) (by decide +kernel)
  obtain ⟨items, params, inputs⟩ := ofJson_toJson_of_obtained
  exact ⟨⟨f, hf, (items _ (.function hf)).1⟩, ⟨p, hp, (params p (.decoded hp)).1⟩,
    ⟨q, hq, (inputs pairInput q hq).1⟩⟩

end Item

end ContractInterface

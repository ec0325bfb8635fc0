import ContractInterface.Item.Json
import ContractInterface.Proofs.Param.Schema

/-! The schema of items in JSON. Which keys are looked at depends on the kind of the item; what may
stand under one of them does not. -/
namespace ContractInterface
open Sequencing Json

variable {fields : List (Utf16 × Json)}

def Mutability.IsName (x : Json) : Prop := ∃ m : Mutability, x = .string m.name

theorem Mutability.bind_ofName?_eq_some {t : Utf16} {m : Mutability} :
    t.toString?.bind ofName? = some m ↔ t = Utf16.ofString m.name :=
  Utf16.bind_toString?_eq_some ofName?_name fun h => by simpa using List.find?_some h

/-- Where the key is absent or null there is always a mutability, whatever the older flags say. -/
theorem Mutability.exists_ofFields {default : Mutability} :
    (∃ m, ofFields fields default = .ok m) ↔
      Optional fields "stateMutability" (OrNull IsName) := by
  have older : ∃ m, (if ofFields.isSet fields "payable" then .ok payable
      else if ofFields.isSet fields "constant" then .ok view else .ok default) =
        (.ok m : Except Failure Mutability) := by
    split
    · exact ⟨payable, rfl⟩
    · split
      · exact ⟨view, rfl⟩
      · exact ⟨default, rfl⟩
  unfold ofFields
  cases h : field? fields "stateMutability" with
  | none => exact iff_of_true older (optional_of_none h)
  | some x =>
    rw [optional_of_some h]
    cases x with
    | null => exact iff_of_true older (.inl rfl)
    | string t =>
      have hname : OrNull IsName (.string t) ↔ ∃ m, t.toString?.bind ofName? = some m := by
        simp [OrNull, IsName, bind_ofName?_eq_some]
      rw [hname]
      dsimp only
      cases t.toString?.bind ofName? <;> simp
    | _ => simp [OrNull, IsName]

namespace Item

/-- The fields of an object of the given kind. -/
@[mk_iff] structure FieldsSchema (kind : Kind) (fields : List (Utf16 × Json)) : Prop where
  tag : Required fields "type" (· = .string kind.tag) ∨
    kind = .function ∧ field? fields "type" = none
  name : Optional fields "name" (OrNull IsIdentifier)
  anonymous : kind = .event → Optional fields "anonymous" IsBool
  named : kind ∈ [.function, .event, .error] → Required fields "name" IsIdentifier
  inputs : kind ∈ [.constructor, .function, .error] →
    Optional fields "inputs" (OrNull (IsListOf (Param.Schema (maxNesting + 1))))
  eventInputs : kind = .event → Optional fields "inputs" (OrNull (IsListOf Param.InputSchema))
  outputs : kind = .function →
    Optional fields "outputs" (OrNull (IsListOf (Param.Schema (maxNesting + 1))))
  mutability : kind ∈ [.constructor, .fallback, .receive, .function] →
    Optional fields "stateMutability" (OrNull Mutability.IsName)

def Schema (x : Json) : Prop := ∃ kind fields, x = .object fields ∧ FieldsSchema kind fields

theorem tagField_eq_ok {kind : Kind} :
    tagField fields = .ok kind ↔
      Required fields "type" (· = .string kind.tag) ∨
        kind = .function ∧ field? fields "type" = none := by
  unfold tagField
  cases h : field? fields "type" with
  | none => simp [Required, h, eq_comm]
  | some x =>
    rw [required_of_some h]
    cases x with
    | string t =>
      have htag : t = Utf16.ofString kind.tag ↔ t.toString?.bind Kind.ofTag? = some kind :=
        (Utf16.bind_toString?_eq_some Kind.ofTag?_tag Kind.tag_of_ofTag?).symm
      simp only [Json.string.injEq, htag]
      cases t.toString?.bind Kind.ofTag? <;> simp
    | _ => simp

theorem exists_nameField? {kind : Kind} :
    (∃ name?, nameField? kind fields = .ok name?) ↔
      Optional fields "name" (OrNull IsIdentifier) := by
  unfold nameField?
  cases h : field? fields "name" with
  | none => simp [optional_of_none h]
  | some x =>
    rw [optional_of_some h]
    cases x <;> simp [OrNull, IsIdentifier, checkName_eq_ok, map_eq_ok]

theorem exists_requireName {kind : Kind} {name? : Option String}
    (hname : nameField? kind fields = .ok name?) :
    (∃ name, requireName kind name? = .ok name) ↔ Required fields "name" IsIdentifier := by
  unfold nameField? at hname
  cases h : field? fields "name" with
  | none =>
    rw [h] at hname
    cases hname
    simp [requireName, Required, h]
  | some x =>
    rw [h] at hname
    rw [required_of_some h]
    cases x with
    | null =>
      cases hname
      simp [requireName, IsIdentifier]
    | string t =>
      obtain ⟨name, hcheck, rfl⟩ := map_eq_ok.mp hname
      obtain ⟨rfl, hvalid⟩ := checkName_eq_ok.mp hcheck
      refine iff_of_true ⟨name, rfl⟩ ⟨name, rfl, ?_⟩
      exact hvalid.resolve_left (by simp)
    | _ => cases hname

theorem exists_paramsField {decode : Json → Except Failure Param} {key : String} :
    (∃ ps, paramsField decode key fields = .ok ps) ↔
      Optional fields key (OrNull (IsListOf fun x => ∃ p, decode x = .ok p)) := by
  unfold paramsField
  cases h : field? fields key with
  | none => simp [optional_of_none h]
  | some x =>
    rw [optional_of_some h]
    cases x <;> simp [OrNull, IsListOf, exists_mapM_iff]

theorem exists_anonymousField :
    (∃ anonymous, anonymousField fields = .ok anonymous) ↔
      Optional fields "anonymous" IsBool := by
  unfold anonymousField
  cases h : field? fields "anonymous" with
  | none => simp [optional_of_none h]
  | some x =>
    rw [optional_of_some h]
    cases x <;> simp [IsBool]

/-- Of what an object holds, each kind looks at the keys that belong to it. -/
theorem exists_ofFields {kind : Kind} {name? : Option String}
    (htag : tagField fields = .ok kind) (hname : nameField? kind fields = .ok name?) :
    (∃ item, ofFields fields name? kind = .ok item) ↔ FieldsSchema kind fields := by
  rw [fieldsSchema_iff, iff_true_intro (tagField_eq_ok.mp htag),
    iff_true_intro (exists_nameField?.mp ⟨name?, hname⟩)]
  cases kind with
  | constructor =>
    rw [ofFields, exists_bind_iff fun _ => exists_bind_iff fun _ => exists_ok _]
    simp [exists_paramsField, Mutability.exists_ofFields, Param.exists_ofJson]
  | fallback =>
    rw [ofFields, exists_bind_iff fun _ => exists_ok _]
    simp [Mutability.exists_ofFields]
  | receive =>
    rw [ofFields, exists_bind_iff fun _ => exists_ok _]
    simp [Mutability.exists_ofFields]
  | function =>
    rw [ofFields, exists_bind_iff fun _ => exists_bind_iff fun _ => exists_bind_iff fun _ =>
      exists_bind_iff fun _ => exists_ok _]
    simp [exists_requireName hname, exists_paramsField, Mutability.exists_ofFields,
      Param.exists_ofJson]
  | event =>
    rw [ofFields, exists_bind_iff fun _ => exists_bind_iff fun _ => exists_bind_iff fun _ =>
      exists_ok _, exists_anonymousField]
    simp [exists_requireName hname, exists_paramsField, Param.exists_eventInputOfJson]
  | error =>
    rw [ofFields, exists_bind_iff fun _ => exists_bind_iff fun _ => exists_ok _]
    simp [exists_requireName hname, exists_paramsField, Param.exists_ofJson]

/-- An item is decoded exactly if it is an object with the fields of some kind. -/
theorem exists_ofJson_iff_schema (x : Json) : (∃ item, ofJson x = .ok item) ↔ Schema x := by
  constructor
  · rintro ⟨item, h⟩
    cases x with
    | object fields =>
      obtain ⟨kind, htag, h⟩ := bind_eq_ok.mp h
      obtain ⟨name?, hname, h⟩ := bind_eq_ok.mp h
      exact ⟨kind, fields, rfl, (exists_ofFields htag hname).mp ⟨item, h⟩⟩
    | _ => cases h
  · rintro ⟨kind, fields, rfl, h⟩
    have htag := tagField_eq_ok.mpr h.tag
    obtain ⟨name?, hname⟩ : ∃ name?, nameField? kind fields = .ok name? :=
      exists_nameField?.mpr h.name
    obtain ⟨item, hitem⟩ := (exists_ofFields htag hname).mpr h
    exact ⟨item, bind_eq_ok.mpr ⟨kind, htag, bind_eq_ok.mpr ⟨name?, hname, hitem⟩⟩⟩

end Item

end ContractInterface

import ContractInterface.Proofs.Param.WellFormed

/-! The schema of parameters in JSON, stated by what may stand under each key. A value is decoded
exactly if it is as the schema says. -/
namespace ContractInterface
open Sequencing

namespace Json

variable (fields : List (Utf16 × Json)) (key : Utf16)

/-- The key is there, and its value is as stated. -/
def Required (P : Json → Prop) : Prop := ∃ x, field? fields key = some x ∧ P x

/-- The value is as stated if the key is there. -/
def Optional (P : Json → Prop) : Prop := ∀ x, field? fields key = some x → P x

def OrNull (P : Json → Prop) (x : Json) : Prop := x = .null ∨ P x

def IsText (x : Json) : Prop := ∃ t, x = .string t

def IsBool (x : Json) : Prop := ∃ b, x = .bool b

def IsIdentifier (x : Json) : Prop :=
  ∃ name : String, x = .string name ∧ Identifier.isValid name.toList = true

def IsListOf (P : Json → Prop) (x : Json) : Prop := ∃ items, x = .array items ∧ ∀ y ∈ items, P y

variable {fields key} {P : Json → Prop}

theorem optional_of_none (h : field? fields key = none) : Optional fields key P := by
  intro x hx
  cases h.symm.trans hx

theorem optional_of_some {x : Json} (h : field? fields key = some x) :
    Optional fields key P ↔ P x := by
  rw [Optional, h]
  simp

theorem required_of_some {x : Json} (h : field? fields key = some x) :
    Required fields key P ↔ P x := by
  rw [Required, h]
  simp

end Json

namespace Param
open Json

/-- The type is the given word, behind which there are only dimensions. -/
def Spelled (word : List Char) (x : Json) : Prop :=
  ∃ ds sizes, TypeSpec.Dimensions ds sizes ∧ x = .string (String.ofList (word ++ ds))

/-- The fields of a parameter whose components are as stated. -/
structure FieldsSchema (Component : Json → Prop) (fields : List (Utf16 × Json)) : Prop where
  type : Required fields "type" fun x => ∃ word, Identifier.isValid word = true ∧ Spelled word x
  name : Optional fields "name" (OrNull fun x => x = .string "" ∨ IsIdentifier x)
  components : Optional fields "components" fun x =>
    x.isFalsy = true ∨ Required fields "type" (Spelled tupleWord.toList) ∧ IsListOf Component x
  internalType : Optional fields "internalType" (OrNull IsText)

/-- A parameter with at most the given number of levels, its own included. -/
def Schema : Nat → Json → Prop
  | 0, _ => False
  | levels + 1, x => ∃ fields, x = .object fields ∧ FieldsSchema (Schema levels) fields

/-- An input of an event, which may say whether it is a topic. Its components do not. -/
def InputSchema (x : Json) : Prop :=
  Schema (maxNesting + 1) x ∧ ∃ fields, x = .object fields ∧ Optional fields "indexed" IsBool

variable {fields : List (Utf16 × Json)}

theorem typeText_iff {ty : String} {hasComponents : Bool} :
    TypeText ty hasComponents ↔
      (∃ word, Identifier.isValid word = true ∧ Spelled word (.string ty)) ∧
        (hasComponents = true → Spelled tupleWord.toList (.string ty)) := by
  constructor
  · intro h
    cases h with
    | tuple dims => exact ⟨⟨_, by decide, _, _, dims, rfl⟩, fun _ => ⟨_, _, dims, rfl⟩⟩
    | named identifier _ dims => exact ⟨⟨_, identifier, _, _, dims, rfl⟩, by simp⟩
  · rintro ⟨⟨word, identifier, ds, sizes, dims, hty⟩, htuple⟩
    obtain rfl := Utf16.ofString_injective (Json.string.inj hty)
    cases hasComponents with
    | true =>
      obtain ⟨ds', sizes', dims', hty'⟩ := htuple rfl
      rw [Utf16.ofString_injective (Json.string.inj hty')]
      exact .tuple dims' true
    | false =>
      by_cases hword : word = tupleWord.toList
      · subst hword
        exact .tuple dims false
      · exact .named identifier hword dims

theorem typeField_eq_ok {ty : Utf16} :
    typeField fields = .ok ty ↔ field? fields "type" = some (.string ty) := by
  unfold typeField
  split
  · next h => simp [h]
  · next h => simpa using fun hty => h ty hty

theorem exists_nameField :
    (∃ name, nameField fields = .ok name) ↔
      Optional fields "name" (OrNull fun x => x = .string "" ∨ IsIdentifier x) := by
  unfold nameField
  cases h : field? fields "name" with
  | none => simp [optional_of_none h]
  | some x =>
    rw [optional_of_some h]
    cases x <;> simp [OrNull, IsIdentifier, checkName_eq_ok, and_or_left, exists_or]

theorem exists_internalTypeField :
    (∃ internalType, internalTypeField fields = .ok internalType) ↔
      Optional fields "internalType" (OrNull IsText) := by
  unfold internalTypeField
  cases h : field? fields "internalType" with
  | none => simp [optional_of_none h]
  | some x =>
    rw [optional_of_some h]
    cases x <;> simp [OrNull, IsText]

/-- Falsy values stand for no components; others have to be a list, and components need a tuple. -/
theorem exists_componentsField {Component : Json → Prop} {IsTuple : Prop} :
    (∃ items, componentsField fields = .ok items ∧ ((!items.isEmpty) = true → IsTuple) ∧
        ∀ y ∈ items, Component y) ↔
      Optional fields "components" fun x =>
        x.isFalsy = true ∨ IsTuple ∧ IsListOf Component x := by
  unfold componentsField
  cases h : field? fields "components" with
  | none => simp [optional_of_none h]
  | some x =>
    rw [optional_of_some h]
    cases x with
    | array items => cases items <;> simp [isFalsy, IsListOf]
    | _ =>
      dsimp only
      split <;> simp [IsListOf, *]

/-- A value is decoded exactly if it is an object with the fields of a parameter. -/
theorem exists_decode_succ {n : Nat} {x : Json} :
    (∃ p, decode (n + 1) x = .ok p) ↔
      ∃ fields, x = .object fields ∧ FieldsSchema (fun y => ∃ p, decode n y = .ok p) fields := by
  constructor
  · rintro ⟨p, h⟩
    cases x with
    | object fields =>
      obtain ⟨ty, items, hty, hname, hitems, hread, hinternal, hcomponents, -⟩ :=
        decode_succ_eq_ok.mp h
      obtain ⟨rfl, htext⟩ := readType_eq_ok.mp hread
      obtain ⟨hspelled, htuple⟩ := typeText_iff.mp htext
      have htype := typeField_eq_ok.mp hty
      refine ⟨fields, rfl, ⟨_, htype, hspelled⟩, exists_nameField.mp ⟨_, hname⟩, ?_,
        exists_internalTypeField.mp ⟨_, hinternal⟩⟩
      refine exists_componentsField.mp ⟨items, hitems, fun hne => ⟨_, htype, htuple hne⟩, ?_⟩
      exact exists_mapM_iff.mp ⟨_, hcomponents⟩
    | _ => cases h
  · rintro ⟨fields, rfl, ⟨ty, htype, word, identifier, hspelled⟩, hname, hcomponents, hinternal⟩
    obtain ⟨name, hname⟩ := exists_nameField.mpr hname
    obtain ⟨internalType, hinternal⟩ := exists_internalTypeField.mpr hinternal
    obtain ⟨items, hitems, htuple, hmembers⟩ := exists_componentsField.mpr hcomponents
    obtain ⟨components, hcomponents⟩ := exists_mapM_iff.mpr hmembers
    obtain ⟨ds, sizes, dims, rfl⟩ := hspelled
    have htext : TypeText (.ofList (word ++ ds)) (!items.isEmpty) :=
      typeText_iff.mpr ⟨⟨word, identifier, ds, sizes, dims, rfl⟩,
        fun hne => (required_of_some htype).mp (htuple hne)⟩
    exact ⟨⟨name, _, components, internalType, none⟩, decode_succ_eq_ok.mpr
      ⟨_, items, typeField_eq_ok.mpr htype, hname, hitems, readType_eq_ok.mpr ⟨rfl, htext⟩,
        hinternal, hcomponents, rfl⟩⟩

theorem exists_decode {n : Nat} {x : Json} : (∃ p, decode n x = .ok p) ↔ Schema n x := by
  induction n generalizing x with
  | zero => simp [decode, Schema]
  | succ n ih =>
    rw [exists_decode_succ]
    simp only [ih]
    rfl

theorem exists_ofJson {x : Json} : (∃ p, ofJson x = .ok p) ↔ Schema (maxNesting + 1) x :=
  exists_decode

theorem exists_indexedField {x : Json} :
    (∃ indexed, indexedField x = .ok indexed) ↔
      ∃ fields, x = .object fields ∧ Optional fields "indexed" IsBool := by
  cases x with
  | object fields =>
    simp only [Json.object.injEq, exists_eq_left', indexedField]
    cases h : field? fields "indexed" with
    | none => simp [optional_of_none h]
    | some x =>
      rw [optional_of_some h]
      cases x <;> simp [IsBool]
  | _ => simp [indexedField]

theorem exists_eventInputOfJson {x : Json} :
    (∃ p, eventInputOfJson x = .ok p) ↔ InputSchema x := by
  rw [InputSchema, ← exists_ofJson, ← exists_indexedField, eventInputOfJson,
    exists_bind_iff fun _ => exists_bind_iff fun _ => exists_ok _, and_true]

end Param

end ContractInterface

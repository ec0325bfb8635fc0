import ContractInterface.Proofs.Item.Refusal
import ContractInterface.Proofs.Item.Schema

/-! Fields of the wrong JSON type. An object with such a field is refused, with two exceptions:
falsy values stand for an empty list of components, and the older flags of mutability are told by
whether they are falsy, so that what is of another type changes the item that is decoded. -/
namespace ContractInterface
open Sequencing Json

/-- The JSON types that fields stand for. -/
inductive FieldType
  | text
  | list
  | flag

def FieldType.Holds : FieldType → Json → Prop
  | text => IsText
  | list => IsListOf fun _ => True
  | flag => IsBool

/-- One of the fields is there, and is neither null nor of its type. Those that are overlooked do
not count. -/
def Json.Mistypes (overlooked : String → Json → Prop) (Field : String → FieldType → Prop)
    (fields : List (Utf16 × Json)) : Prop :=
  ∃ key type x, Field key type ∧ field? fields key = some x ∧ x ≠ .null ∧ ¬ type.Holds x ∧
    ¬ overlooked key x

namespace Param

/-- The fields that are read of every parameter. -/
inductive Field : String → FieldType → Prop
  | name : Field "name" .text
  | type : Field "type" .text
  | components : Field "components" .list
  | internalType : Field "internalType" .text

/-- The field that is read of an input of an event besides. -/
inductive InputField : String → FieldType → Prop
  | indexed : InputField "indexed" .flag

/-- A field of a parameter, or of one inside it at any depth, is not of its type. -/
inductive Mistyped (overlooked : String → Json → Prop) : Json → Prop
  | field {fields : List (Utf16 × Json)} (h : Mistypes overlooked Field fields) :
      Mistyped overlooked (.object fields)
  | component {fields : List (Utf16 × Json)} {items : List Json} {y : Json}
      (hitems : field? fields "components" = some (.array items)) (hy : y ∈ items)
      (h : Mistyped overlooked y) : Mistyped overlooked (.object fields)

end Param

namespace Item

/-- The fields that are read of an object of the given kind. The older flags of mutability are read
where no mutability is given. -/
inductive Field (kind : Kind) (fields : List (Utf16 × Json)) : String → FieldType → Prop
  | name : Field kind fields "name" .text
  | inputs (h : kind ∈ [.constructor, .function, .event, .error]) : Field kind fields "inputs" .list
  | outputs (h : kind = .function) : Field kind fields "outputs" .list
  | mutability (h : kind ∈ [.constructor, .fallback, .receive, .function]) :
      Field kind fields "stateMutability" .text
  | older {key : String} (h : kind ∈ [.constructor, .fallback, .receive, .function])
      (habsent : Optional fields "stateMutability" (· = .null))
      (hkey : key ∈ ["payable", "constant"]) : Field kind fields key .flag
  | anonymous (h : kind = .event) : Field kind fields "anonymous" .flag

/-- A field of an object of the given kind, or of a parameter in it, is not of its type. -/
inductive Mistyped (overlooked : String → Json → Prop) (kind : Kind)
    (fields : List (Utf16 × Json)) : Prop
  | field (h : Mistypes overlooked (Field kind fields) fields) : Mistyped overlooked kind fields
  | param {key : String} {items : List Json} {y : Json} (hkey : Field kind fields key .list)
      (hitems : field? fields key = some (.array items)) (hy : y ∈ items)
      (h : Param.Mistyped overlooked y) : Mistyped overlooked kind fields
  | input {items : List Json} {input : List (Utf16 × Json)} (hkind : kind = .event)
      (hitems : field? fields "inputs" = some (.array items)) (hinput : .object input ∈ items)
      (h : Mistypes overlooked Param.InputField input) : Mistyped overlooked kind fields

/-- What is taken for something else than it is: a falsy value for no components, and whatever
stands under an older flag for a truth value. -/
def Overlooked (key : String) (x : Json) : Prop :=
  key = "components" ∧ x.isFalsy = true ∨ key ∈ ["payable", "constant"]

end Item

open Item (Overlooked)

variable {fields : List (Utf16 × Json)}

theorem Json.Optional.holds {P : Json → Prop} {key : String} {type : FieldType} {x : Json}
    (h : Optional fields key (OrNull P)) (hP : ∀ y, P y → type.Holds y)
    (hx : field? fields key = some x) (hnull : x ≠ .null) : type.Holds x :=
  hP x ((h x hx).resolve_left hnull)

theorem isText_of_isIdentifier {x : Json} (h : IsIdentifier x) : IsText x := by
  obtain ⟨name, rfl, -⟩ := h
  exact ⟨name, rfl⟩

theorem isList_of_isListOf {P : Json → Prop} {x : Json} (h : IsListOf P x) :
    FieldType.list.Holds x := by
  obtain ⟨items, rfl, -⟩ := h
  exact ⟨items, rfl, fun _ _ => trivial⟩

namespace Param

theorem FieldsSchema.not_mistypes {Component : Json → Prop} (h : FieldsSchema Component fields) :
    ¬ Mistypes Overlooked Field fields := by
  rintro ⟨key, type, x, hfield, hx, hnull, htype, hseen⟩
  cases hfield with
  | name =>
    refine htype (h.name.holds (fun y hy => ?_) hx hnull)
    rcases hy with rfl | hy
    · exact ⟨_, rfl⟩
    · exact isText_of_isIdentifier hy
  | type =>
    obtain ⟨word, -, ds, sizes, -, rfl⟩ := (required_of_some hx).mp h.type
    exact htype ⟨_, rfl⟩
  | components =>
    rcases h.components x hx with hfalsy | ⟨-, hlist⟩
    · exact hseen (.inl ⟨rfl, hfalsy⟩)
    · exact htype (isList_of_isListOf hlist)
  | internalType => exact htype (h.internalType.holds (fun _ hy => hy) hx hnull)

theorem Mistyped.not_schema {x : Json} (h : Mistyped Overlooked x) (n : Nat) : ¬ Schema n x := by
  induction h generalizing n with
  | field h =>
    intro hschema
    cases n with
    | zero => exact hschema
    | succ n =>
      obtain ⟨_, ⟨⟩, hfields⟩ := hschema
      exact hfields.not_mistypes h
  | component hitems hy _ ih =>
    intro hschema
    cases n with
    | zero => exact hschema
    | succ n =>
      obtain ⟨_, ⟨⟩, hfields⟩ := hschema
      rcases hfields.components _ hitems with hfalsy | ⟨-, _, ⟨⟩, hall⟩
      · rw [List.isEmpty_iff.mp hfalsy] at hy
        cases hy
      · exact ih n (hall _ hy)

/-- Whatever is falsy stands for no components. -/
theorem componentsField_of_falsy (h : Optional fields "components" (·.isFalsy = true)) :
    componentsField fields = .ok [] := by
  unfold componentsField
  split
  · rfl
  · next items hitems => rw [List.isEmpty_iff.mp (h _ hitems)]
  · next found _ hfound => rw [if_pos (h _ hfound)]

/-- Objects that differ only in values taken for no components are decoded alike. -/
theorem decode_congr_components {fields' : List (Utf16 × Json)} {n : Nat} {p : Param}
    (hother : ∀ key : String, key ≠ "components" → field? fields' key = field? fields key)
    (h : Optional fields "components" (·.isFalsy = true))
    (h' : Optional fields' "components" (·.isFalsy = true)) :
    decode n (.object fields') = .ok p ↔ decode n (.object fields) = .ok p := by
  cases n with
  | zero => simp [decode]
  | succ n =>
    rw [decode_succ_eq_ok, decode_succ_eq_ok, componentsField_of_falsy h,
      componentsField_of_falsy h']
    simp only [typeField_eq_ok, nameField, internalTypeField, hother "type" (by decide),
      hother "name" (by decide), hother "internalType" (by decide)]

end Param

namespace Item

theorem FieldsSchema.not_mistypes {kind : Kind} (h : FieldsSchema kind fields) :
    ¬ Mistypes Overlooked (Field kind fields) fields := by
  rintro ⟨key, type, x, hfield, hx, hnull, htype, hseen⟩
  cases hfield with
  | name => exact htype (h.name.holds (fun _ => isText_of_isIdentifier) hx hnull)
  | inputs hkind =>
    by_cases hevent : kind = .event
    · exact htype ((h.eventInputs hevent).holds (fun _ => isList_of_isListOf) hx hnull)
    · refine htype ((h.inputs ?_).holds (fun _ => isList_of_isListOf) hx hnull)
      simpa [hevent] using hkind
  | outputs hkind => exact htype ((h.outputs hkind).holds (fun _ => isList_of_isListOf) hx hnull)
  | mutability hkind =>
    refine htype ((h.mutability hkind).holds (fun y hy => ?_) hx hnull)
    obtain ⟨m, rfl⟩ := hy
    exact ⟨_, rfl⟩
  | older hkind habsent hkey => exact hseen (.inr hkey)
  | anonymous hkind => exact htype (h.anonymous hkind x hx)

theorem FieldsSchema.not_mistyped {kind : Kind} (h : FieldsSchema kind fields) :
    ¬ Mistyped Overlooked kind fields := by
  have member {P : Json → Prop} {key : String} {items : List Json}
      (hlist : Optional fields key (OrNull (IsListOf P)))
      (hitems : field? fields key = some (.array items)) : ∀ y ∈ items, P y := by
    rcases hlist _ hitems with h | ⟨_, ⟨⟩, hall⟩
    · cases h
    · exact hall
  intro hm
  cases hm with
  | field hm => exact h.not_mistypes hm
  | param hkey hitems hy hm =>
    cases hkey with
    | inputs hkind =>
      by_cases hevent : kind = .event
      · exact hm.not_schema _ (member (h.eventInputs hevent) hitems _ hy).1
      · refine hm.not_schema _ (member (h.inputs ?_) hitems _ hy)
        simpa [hevent] using hkind
    | outputs hkind => exact hm.not_schema _ (member (h.outputs hkind) hitems _ hy)
  | input hkind hitems hinput hm =>
    obtain ⟨-, _, ⟨⟩, hindexed⟩ := member (h.eventInputs hkind) hitems _ hinput
    obtain ⟨key, type, x, hfield, hx, -, htype, -⟩ := hm
    cases hfield with
    | indexed => exact htype (hindexed x hx)

theorem refused_of_mistyped {kind : Kind} (htag : tagField fields = .ok kind)
    (h : Mistyped Overlooked kind fields) : ∃ e, ofJson (.object fields) = .error e := by
  apply exists_error_of_not_ok
  rintro ⟨item, hitem⟩
  obtain ⟨kind', htag', hitem⟩ := bind_eq_ok.mp hitem
  obtain ⟨name?, hname, hitem⟩ := bind_eq_ok.mp hitem
  cases htag.symm.trans htag'
  exact ((exists_ofFields htag hname).mp ⟨item, hitem⟩).not_mistyped h

/-- Objects that differ only in the older flags, and there only in values that are falsy or not
alike, are decoded alike. -/
theorem ofJson_congr_older {fields' : List (Utf16 × Json)}
    (hother : ∀ key : String, key ∉ ["payable", "constant"] →
      field? fields' key = field? fields key)
    (holder : ∀ key : String, key ∈ ["payable", "constant"] →
      (field? fields' key).all isFalsy = (field? fields key).all isFalsy) :
    ofJson (.object fields') = ofJson (.object fields) := by
  have hset (key : String) (hkey : key ∈ ["payable", "constant"]) :
      Mutability.ofFields.isSet fields' key = Mutability.ofFields.isSet fields key := by
    have h := holder key hkey
    unfold Mutability.ofFields.isSet
    cases h' : field? fields' key <;> cases h'' : field? fields key <;> simp_all
  have hmutability (default : Mutability) :
      Mutability.ofFields fields' default = Mutability.ofFields fields default := by
    unfold Mutability.ofFields
    rw [hother "stateMutability" (by decide), hset "payable" (by decide),
      hset "constant" (by decide)]
  have hparams (decode : Json → Except Failure Param) (key : String)
      (hkey : key ∉ ["payable", "constant"]) :
      paramsField decode key fields' = paramsField decode key fields := by
    unfold paramsField
    rw [hother key hkey]
  have hfields (name? : Option String) (kind : Kind) :
      ofFields fields' name? kind = ofFields fields name? kind := by
    cases kind <;> simp only [ofFields, hmutability, hparams _ "inputs" (by decide),
      hparams _ "outputs" (by decide), anonymousField, hother "anonymous" (by decide)]
  simp only [ofJson, tagField, nameField?, hother "type" (by decide), hother "name" (by decide),
    hfields]

/-- A function whose mutability is given by a text where a truth value should stand. -/
def payableText : List (Utf16 × Json) := [("name", .string "f"), ("payable", .string "false")]

/-- A function that takes a parameter whose components are a number. -/
def numberedComponents : List (Utf16 × Json) :=
  [("name", .string "f"),
    ("inputs", .array [.object [("type", .string "bool"), ("components", .int 0)]])]

/-- A function whose name is a number. -/
def numberedName : List (Utf16 × Json) := [("name", .int 0), ("payable", .bool true)]

end Item

end ContractInterface

import ContractInterface.Failure
import ContractInterface.Text.Utf16

/-! Names that are checked. A check lets a name through as it is, and only if it is an identifier or
empty where that is allowed. -/
namespace ContractInterface

theorem checkIdentifier_eq_ok {name s : String} {context : Option String} {allowEmpty : Bool} :
    checkIdentifier name context allowEmpty = .ok s ↔
      s = name ∧ (allowEmpty = true ∧ name = "" ∨ Identifier.isValid name.toList = true) := by
  simp only [checkIdentifier, Bool.or_eq_true, Bool.and_eq_true, String.isEmpty_iff]
  split
  · next h =>
    constructor
    · intro hs
      cases hs
      exact ⟨rfl, h⟩
    · rintro ⟨rfl, -⟩
      rfl
  · next h =>
    constructor
    · intro hs
      cases hs
    · rintro ⟨-, hs⟩
      exact absurd hs h

theorem checkIdentifier_false_eq_ok {name s : String} {context : Option String} :
    checkIdentifier name context false = .ok s ↔
      s = name ∧ Identifier.isValid name.toList = true := by
  rw [checkIdentifier_eq_ok]
  simp

theorem checkName_eq_ok {name : Utf16} {s context : String} {allowEmpty : Bool} :
    checkName name context allowEmpty = .ok s ↔
      name = Utf16.ofString s ∧
        (allowEmpty = true ∧ s = "" ∨ Identifier.isValid s.toList = true) := by
  unfold checkName
  cases h : name.toString? with
  | none => simp [Utf16.ne_ofString_of_toString?_eq_none h]
  | some t =>
    obtain rfl := Utf16.toString?_eq_some_iff.mp h
    rw [checkIdentifier_eq_ok]
    constructor
    · rintro ⟨rfl, hs⟩
      exact ⟨rfl, hs⟩
    · rintro ⟨ht, hs⟩
      obtain rfl := Utf16.ofString_injective ht
      exact ⟨rfl, hs⟩

/-- A text stands for one of several values that are known by their names exactly if it is the name
of that value. -/
theorem Utf16.bind_toString?_eq_some {α : Type} {find : String → Option α} {name : α → String}
    (find_name : ∀ a, find (name a) = some a) (name_of_find : ∀ {s a}, find s = some a → name a = s)
    {t : Utf16} {a : α} : t.toString?.bind find = some a ↔ t = ofString (name a) := by
  rw [Option.bind_eq_some_iff]
  constructor
  · rintro ⟨s, hs, ha⟩
    rw [name_of_find ha]
    exact toString?_eq_some_iff.mp hs
  · rintro rfl
    exact ⟨name a, toString?_ofString _, find_name a⟩

end ContractInterface

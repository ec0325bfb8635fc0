import ContractInterface.Item.Json
import ContractInterface.Proofs.Declaration
import ContractInterface.Proofs.Param.Decoding

/-! Well-formed items. Whichever way an item comes about, from JSON or from a declaration, its name
is an identifier and its parameters are well-formed. -/
namespace ContractInterface
open Sequencing

namespace Param

/-- The ways in which parameters come about: from JSON, and from the text of a declaration. -/
inductive Obtained : Param → Prop
  | decoded {x : Json} {p : Param} (h : ofJson x = .ok p) : Obtained p
  | declared {text : String} {requireName : Bool} {p : Param}
      (h : Declaration.parseParam text requireName = .ok p) : Obtained p

theorem Obtained.wellFormed {p : Param} (h : p.Obtained) : WellFormed (maxNesting + 1) p := by
  cases h with
  | decoded h => exact wellFormed_of_decode h
  | declared h => exact Declaration.wellFormed_of_parseParam h

end Param

namespace Item

/-- The ways in which items come about: from JSON, and for functions and errors from the text of a
declaration. -/
inductive Obtained : Item → Prop
  | decoded {x : Json} {item : Item} (h : ofJson x = .ok item) : Obtained item
  | function {text : String} {f : FunctionItem} (h : FunctionItem.parse text = .ok f) :
      Obtained (.function f)
  | error {text : String} {e : ErrorItem} (h : ErrorItem.parse text = .ok e) :
      Obtained (.error e)

inductive WellFormed : Item → Prop
  | constructor {c : ConstructorItem} (inputs : ∀ p ∈ c.inputs, p.WellFormed (maxNesting + 1)) :
      WellFormed (.constructor c)
  | fallback (m : Mutability) : WellFormed (.fallback m)
  | receive (m : Mutability) : WellFormed (.receive m)
  | function {f : FunctionItem} (name : Identifier.isValid f.name.toList = true)
      (inputs : ∀ p ∈ f.inputs, p.WellFormed (maxNesting + 1))
      (outputs : ∀ p ∈ f.outputs, p.WellFormed (maxNesting + 1)) : WellFormed (.function f)
  | event {e : EventItem} (name : Identifier.isValid e.name.toList = true)
      (inputs : ∀ p ∈ e.inputs, p.WellFormedInput) : WellFormed (.event e)
  | error {e : ErrorItem} (name : Identifier.isValid e.name.toList = true)
      (inputs : ∀ p ∈ e.inputs, p.WellFormed (maxNesting + 1)) : WellFormed (.error e)

variable {fields : List (Utf16 × Json)}

theorem isValid_of_nameField? {kind : Kind} {name? : Option String}
    (h : nameField? kind fields = .ok name?) {name : String} (hn : name? = some name) :
    Identifier.isValid name.toList = true := by
  unfold nameField? at h
  split at h
  · cases h
    cases hn
  · cases h
    cases hn
  · obtain ⟨s, hs, rfl⟩ := map_eq_ok.mp h
    cases hn
    exact (checkName_eq_ok.mp hs).2.resolve_left (by simp)
  · cases h

theorem requireName_eq_ok {kind : Kind} {name? : Option String} {name : String}
    (h : requireName kind name? = .ok name) : name? = some name := by
  cases name? <;> cases h
  rfl

/-- What holds of all that is decoded holds of the members of a list. -/
theorem forall_of_paramsField {decode : Json → Except Failure Param} {key : String}
    {ps : List Param} {P : Param → Prop} (h : paramsField decode key fields = .ok ps)
    (hP : ∀ {x p}, decode x = .ok p → P p) : ∀ p ∈ ps, P p := by
  unfold paramsField at h
  split at h
  · cases h
    simp
  · cases h
    simp
  · intro p hp
    obtain ⟨x, _, hx⟩ := exists_of_mem_of_mapM_eq_ok h hp
    exact hP hx
  · cases h

theorem wellFormed_of_ofFields {name? : Option String} {kind : Kind} {item : Item}
    (hname : ∀ name, name? = some name → Identifier.isValid name.toList = true)
    (h : ofFields fields name? kind = .ok item) : item.WellFormed := by
  cases kind with
  | constructor =>
    obtain ⟨inputs, hinputs, h⟩ := bind_eq_ok.mp h
    obtain ⟨m, _, h⟩ := bind_eq_ok.mp h
    cases h
    exact .constructor (forall_of_paramsField hinputs Param.wellFormed_of_decode)
  | fallback =>
    obtain ⟨m, _, h⟩ := bind_eq_ok.mp h
    cases h
    exact .fallback m
  | receive =>
    obtain ⟨m, _, h⟩ := bind_eq_ok.mp h
    cases h
    exact .receive m
  | function =>
    obtain ⟨name, hn, h⟩ := bind_eq_ok.mp h
    obtain ⟨inputs, hinputs, h⟩ := bind_eq_ok.mp h
    obtain ⟨outputs, houtputs, h⟩ := bind_eq_ok.mp h
    obtain ⟨m, _, h⟩ := bind_eq_ok.mp h
    cases h
    exact .function (hname name (requireName_eq_ok hn))
      (forall_of_paramsField hinputs Param.wellFormed_of_decode)
      (forall_of_paramsField houtputs Param.wellFormed_of_decode)
  | event =>
    obtain ⟨anonymous, _, h⟩ := bind_eq_ok.mp h
    obtain ⟨name, hn, h⟩ := bind_eq_ok.mp h
    obtain ⟨inputs, hinputs, h⟩ := bind_eq_ok.mp h
    cases h
    exact .event (hname name (requireName_eq_ok hn))
      (forall_of_paramsField hinputs Param.wellFormedInput_of_eventInputOfJson)
  | error =>
    obtain ⟨name, hn, h⟩ := bind_eq_ok.mp h
    obtain ⟨inputs, hinputs, h⟩ := bind_eq_ok.mp h
    cases h
    exact .error (hname name (requireName_eq_ok hn))
      (forall_of_paramsField hinputs Param.wellFormed_of_decode)

theorem wellFormed_of_ofJson {x : Json} {item : Item} (h : ofJson x = .ok item) :
    item.WellFormed := by
  cases x with
  | object fields =>
    obtain ⟨kind, _, h⟩ := bind_eq_ok.mp h
    obtain ⟨name?, hname, h⟩ := bind_eq_ok.mp h
    exact wellFormed_of_ofFields (fun _ => isValid_of_nameField? hname) h
  | _ => cases h

theorem Obtained.wellFormed {item : Item} (h : item.Obtained) : item.WellFormed := by
  cases h with
  | decoded h => exact wellFormed_of_ofJson h
  | function h =>
    obtain ⟨d, hd, rfl⟩ := map_eq_ok.mp h
    have hwf := Declaration.wellFormed_of_parse hd
    exact .function hwf.name hwf.inputs hwf.outputs
  | error h =>
    obtain ⟨d, hd, rfl⟩ := map_eq_ok.mp h
    have hwf := Declaration.wellFormed_of_parse hd
    exact .error hwf.name hwf.inputs

end Item

end ContractInterface

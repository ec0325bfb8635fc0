import ContractInterface.Item.Basic
import ContractInterface.Proofs.Param.OfTypeSpec

/-! The steps in which declarations are read. What is read is well-formed: a name that is an
identifier, and parameters as they may stand in JSON. -/
namespace ContractInterface.Declaration
open Sequencing Param Text

/-- A parameter is its first word, a type, and what follows it, a name. -/
theorem parseParam_eq_ok {text : String} {requireName : Bool} {p : Param} :
    parseParam text requireName = .ok p ↔
      ∃ ty name t, words text.toList = (ty, name) ∧ TypeSpec.parse (.ofList ty) = .ok t ∧
        (requireName = false ∧ name = [] ∨ Identifier.isValid name = true) ∧
        p = ofTypeSpec (fun t => some (InternalType.parse t.span)) (.ofList name) t := by
  unfold parseParam
  generalize words text.toList = w
  obtain ⟨ty, name⟩ := w
  dsimp only
  have hname : (!requireName) = true ∧ String.ofList name = "" ∨
      Identifier.isValid (String.ofList name).toList = true ↔
        requireName = false ∧ name = [] ∨ Identifier.isValid name = true := by
    simp
  constructor
  · intro h
    split at h
    · cases h
    · obtain ⟨s, hs, h⟩ := bind_eq_ok.mp h
      obtain ⟨t, ht, h⟩ := bind_eq_ok.mp h
      cases h
      obtain ⟨rfl, hvalid⟩ := checkIdentifier_eq_ok.mp hs
      exact ⟨ty, name, t, rfl, ht, hname.mp hvalid, rfl⟩
  · rintro ⟨_, _, t, heq, ht, hvalid, rfl⟩
    obtain ⟨rfl, rfl⟩ := Prod.mk.inj heq
    have hty : ty.isEmpty = false := by
      cases ty with
      | nil => cases ht
      | cons _ _ => rfl
    have hreq : (requireName && name.isEmpty) = false := by
      rcases hvalid with ⟨rfl, rfl⟩ | hvalid
      · rfl
      · obtain ⟨c, cs, rfl, -⟩ := Identifier.exists_cons hvalid
        simp
    rw [hty, hreq, if_neg (by simp), checkIdentifier_eq_ok.mpr ⟨rfl, hname.mpr hvalid⟩]
    simp only [bind, Except.bind, ht]

theorem readParams_eq_ok {text : String} {requireNames : Bool} {cs rest : List Char}
    {ps : List Param} :
    readParams text requireNames cs = .ok (ps, rest) ↔
      ∃ pieces, TopLevel.cut ',' 1 cs = .ok (pieces, rest) ∧
        List.Forall₂ (fun piece p => parseParam (.ofList piece) requireNames = .ok p)
          pieces ps := by
  constructor
  · intro h
    obtain ⟨⟨pieces, r⟩, hcut, h⟩ := bind_eq_ok.mp h
    obtain ⟨params, hparams, h⟩ := bind_eq_ok.mp h
    cases h
    exact ⟨pieces, mapError_eq_ok.mp hcut, mapM_eq_ok.mp hparams⟩
  · rintro ⟨pieces, hcut, hparams⟩
    refine bind_eq_ok.mpr ⟨(pieces, rest), mapError_eq_ok.mpr hcut, ?_⟩
    exact bind_eq_ok.mpr ⟨ps, mapM_eq_ok.mpr hparams, rfl⟩

/-- What may stand behind the first list: nothing, or a second list where one is allowed. -/
inductive Outputs (text : String) (requireNames allowOutputs : Bool) :
    List Char → Option (List Param) → Prop
  | absent : Outputs text requireNames allowOutputs [] none
  | listed {body : List Char} {ps : List Param} (allowed : allowOutputs = true)
      (params : readParams text requireNames body = .ok (ps, [])) :
      Outputs text requireNames allowOutputs ('(' :: body) (some ps)

theorem parse_eq_ok {text : String} {requireNames allowOutputs : Bool} {d : Declaration} :
    parse text requireNames allowOutputs = .ok d ↔
      ∃ body rest, trim text.toList = d.name.toList ++ '(' :: body ∧
        Identifier.isValid d.name.toList = true ∧
        readParams (trimmed text) requireNames body = .ok (d.inputs, rest) ∧
        Outputs (trimmed text) requireNames allowOutputs rest d.outputs := by
  have htrimmed : (trimmed text).toList = trim text.toList := String.toList_ofList
  unfold parse
  dsimp only
  generalize trimmed text = s at htrimmed
  rw [← htrimmed]
  constructor
  · intro h
    split at h
    · cases h
    · next c body hbody =>
      obtain ⟨name, hname, h⟩ := bind_eq_ok.mp h
      obtain ⟨⟨inputs, rest⟩, hinputs, h⟩ := bind_eq_ok.mp h
      obtain ⟨hname', hvalid⟩ := checkIdentifier_false_eq_ok.mp hname
      have hcs : s.toList = name.toList ++ '(' :: body := by
        rw [hname', String.toList_ofList]
        exact Identifier.eq_append_parenthesis hbody
      rw [← hname'] at hvalid
      dsimp only at h
      -- With or without a second list, the text has to end there.
      split at h
      · obtain ⟨⟨outputs, last⟩, houtputs, h⟩ := bind_eq_ok.mp h
        obtain ⟨⟨ps, r⟩, hps, heq⟩ := map_eq_ok.mp houtputs
        cases heq
        dsimp only at h
        split at h
        · next hlast =>
          cases h
          obtain rfl := List.isEmpty_iff.mp hlast
          exact ⟨body, _, hcs, hvalid, hinputs, .listed rfl hps⟩
        · cases h
      · obtain ⟨⟨outputs, last⟩, houtputs, h⟩ := bind_eq_ok.mp h
        cases houtputs
        dsimp only at h
        split at h
        · next hlast =>
          cases h
          obtain rfl := List.isEmpty_iff.mp hlast
          exact ⟨body, _, hcs, hvalid, hinputs, .absent⟩
        · cases h
  · rintro ⟨body, rest, htrim, hvalid, hinputs, houtputs⟩
    obtain ⟨name, inputs, outputs⟩ := d
    have hspan := Identifier.span_parenthesis hvalid body
    dsimp only at *
    rw [htrim, hspan.2, hspan.1]
    dsimp only
    rw [String.ofList_toList, checkIdentifier_false_eq_ok.mpr ⟨rfl, hvalid⟩]
    refine bind_eq_ok.mpr ⟨_, rfl, ?_⟩
    refine bind_eq_ok.mpr ⟨_, hinputs, ?_⟩
    cases houtputs with
    | absent => cases allowOutputs <;> rfl
    | listed allowed params =>
      subst allowed
      exact bind_eq_ok.mpr ⟨(_, []), map_eq_ok.mpr ⟨_, params, rfl⟩, rfl⟩

theorem wellFormed_of_parseParam {text : String} {requireName : Bool} {p : Param}
    (h : parseParam text requireName = .ok p) : WellFormed (maxNesting + 1) p := by
  obtain ⟨ty, name, t, -, ht, hname, rfl⟩ := parseParam_eq_ok.mp h
  refine wellFormed_ofTypeSpec ?_ (TypeSpec.parse_eq_ok.mp ht) ?_
  · intro t i ha
    exact ⟨_, Option.some.inj ha⟩
  · rcases hname with ⟨-, rfl⟩ | hvalid
    · exact .inl rfl
    · exact .inr (by rwa [String.toList_ofList])

theorem wellFormed_of_readParams {text : String} {requireNames : Bool} {cs rest : List Char}
    {ps : List Param} (h : readParams text requireNames cs = .ok (ps, rest)) :
    ∀ p ∈ ps, WellFormed (maxNesting + 1) p := by
  obtain ⟨pieces, -, hparams⟩ := readParams_eq_ok.mp h
  intro p hp
  obtain ⟨piece, _, hpiece⟩ := exists_of_mem_of_mapM_eq_ok (mapM_eq_ok.mpr hparams) hp
  exact wellFormed_of_parseParam hpiece

/-- A name that is an identifier, and parameters that may stand in JSON. -/
structure WellFormed (d : Declaration) : Prop where
  name : Identifier.isValid d.name.toList = true
  inputs : ∀ p ∈ d.inputs, p.WellFormed (maxNesting + 1)
  outputs : ∀ p ∈ d.outputs.getD [], p.WellFormed (maxNesting + 1)

theorem wellFormed_of_parse {text : String} {requireNames allowOutputs : Bool} {d : Declaration}
    (h : parse text requireNames allowOutputs = .ok d) : d.WellFormed := by
  obtain ⟨body, rest, -, name, inputs, outputs⟩ := parse_eq_ok.mp h
  refine ⟨name, wellFormed_of_readParams inputs, ?_⟩
  generalize d.outputs = ps at outputs
  cases outputs with
  | absent => simp
  | listed _ params => exact wellFormed_of_readParams params

end ContractInterface.Declaration

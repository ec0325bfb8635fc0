import ContractInterface.Item.Json
import ContractInterface.Proofs.Param.Schema
import ContractInterface.Proofs.TypeSpec.Oversized

/-! Why a JSON value is refused as a parameter or an item. As with texts, either the value says
none, or a text somewhere in it has a size that takes more digits than a number may be read from. -/
namespace ContractInterface
open Sequencing Text

namespace Utf16

theorem replaced_mk_ofChars_append (cs : List Char) (us : List UInt16) :
    (mk (ofChars cs ++ us)).replaced.toList = cs ++ (mk us).replaced.toList := by
  induction cs with
  | nil => rfl
  | cons c cs ih =>
    have hcons : ofChars (c :: cs) ++ us = ofChar c ++ (ofChars cs ++ us) := by simp [ofChars]
    simp only [replaced, points, String.toList_ofList] at ih ⊢
    rw [hcons, pointsOf_ofChar_append, List.map_cons, ih]
    rfl

/-- A character that is read stands at the start of the text. -/
theorem units_of_points_cons {us : List UInt16} {c : Char} {ps : List CodePoint}
    (h : pointsOf us = .char c :: ps) : ∃ vs, us = ofChar c ++ vs ∧ pointsOf vs = ps := by
  have alone {u : UInt16} (hu : lonePoint u = .char c) : ofChar c = [u] :=
    ofChar_of_lonePoint (congrArg CodePoint.char? hu)
  induction us using pointsOf.induct with
  | case1 => cases h
  | case2 u =>
    obtain ⟨hu, rfl⟩ := List.cons.inj h
    exact ⟨[], by rw [alone hu, List.append_nil], rfl⟩
  | case3 u v r huv _ =>
    rw [Bool.and_eq_true] at huv
    rw [pointsOf_pair huv.1 huv.2] at h
    obtain ⟨hc, rfl⟩ := List.cons.inj h
    rw [← CodePoint.char.inj hc, ofChar_joined huv.1 huv.2]
    exact ⟨r, rfl, rfl⟩
  | case4 u v r huv _ =>
    rw [pointsOf, if_neg huv] at h
    obtain ⟨hu, rfl⟩ := List.cons.inj h
    exact ⟨v :: r, by rw [alone hu, List.singleton_append], rfl⟩

/-- Only U+FFFD may stand for something else. -/
theorem units_of_replaced_cons {t : Utf16} {c : Char} {cs : List Char}
    (h : t.replaced.toList = c :: cs) (hc : c ≠ '\uFFFD') :
    ∃ us, t.units = ofChar c ++ us ∧ (mk us).replaced.toList = cs := by
  rw [replaced, String.toList_ofList, List.map_eq_cons_iff] at h
  obtain ⟨p, ps, hpoints, hp, rfl⟩ := h
  cases p with
  | char d =>
    obtain rfl : d = c := hp
    obtain ⟨us, hus, hps⟩ := units_of_points_cons hpoints
    exact ⟨us, hus, by rw [replaced, String.toList_ofList, points, hps]⟩
  | half u => exact absurd hp.symm hc

theorem units_of_replaced_append {t : Utf16} {cs ds : List Char}
    (h : t.replaced.toList = cs ++ ds) (hcs : '\uFFFD' ∉ cs) :
    ∃ us, t.units = ofChars cs ++ us ∧ (mk us).replaced.toList = ds := by
  induction cs generalizing t with
  | nil => exact ⟨t.units, rfl, h⟩
  | cons c cs ih =>
    rw [List.mem_cons, not_or] at hcs
    obtain ⟨us, hus, h⟩ := units_of_replaced_cons h (Ne.symm hcs.1)
    obtain ⟨vs, hvs, h⟩ := ih h hcs.2
    refine ⟨vs, ?_, h⟩
    rw [hus, show us = ofChars cs ++ vs from hvs]
    simp [ofChars]

end Utf16

/-- The first value is found from the second by going from lists to their members and from objects
to the values of their keys. -/
inductive Json.Inside (x : Json) : Json → Prop
  | refl : Inside x x
  | item {items : List Json} {y : Json} (hy : y ∈ items) (h : Inside x y) : Inside x (.array items)
  | value {fields : List (Utf16 × Json)} {key : Utf16} {y : Json}
      (hy : field? fields key = some y) (h : Inside x y) : Inside x (.object fields)

theorem Json.Inside.trans {x y z : Json} (h : Inside x y) (h' : Inside y z) : Inside x z := by
  induction h' with
  | refl => exact h
  | item hy _ ih => exact .item hy ih
  | value hy _ ih => exact .value hy ih

/-- The value accounts for a failure: it says nothing, or a size in a text of it is too long. -/
inductive Failure.AccountedIn (x : Json) : Failure → Prop
  | parse {e : Failure} (own : e.isParse = true) : AccountedIn x e
  | digitLimit {t : Utf16} {n : Nat} (inside : Json.Inside (.string t) x)
      (oversized : TypeSpec.Oversized n t.replaced.toList) : AccountedIn x (.digitLimit n)

theorem Failure.AccountedIn.mono {x y : Json} {e : Failure} (h : e.AccountedIn x)
    (hle : Json.Inside x y) : e.AccountedIn y := by
  cases h with
  | parse own => exact .parse own
  | digitLimit inside oversized => exact .digitLimit (inside.trans hle) oversized

theorem Failure.Accounted.accountedIn {t : Utf16} {e : Failure}
    (h : e.Accounted t.replaced.toList) : e.AccountedIn (.string t) := by
  cases h with
  | parse own => exact .parse own
  | digitLimit oversized => exact .digitLimit .refl oversized

theorem failsIn_checkName (x : Json) (name : Utf16) (context : String) (allowEmpty : Bool) :
    FailsIn (Failure.AccountedIn x) (checkName name context allowEmpty) := by
  unfold checkName checkIdentifier
  split
  · exact .check (.parse rfl)
  · exact .error (.parse rfl)

namespace TypeSpec

theorem accounted_refusal (t : Utf16) : (refusal t).Accounted t.replaced.toList := by
  have hle := trim_isInfix t.replaced.toList
  unfold refusal
  dsimp only
  split
  · next h =>
    cases failsIn_whole _ _ h with
    | digitLimit oversized => exact .digitLimit (oversized.mono hle)
  · exact .parse rfl
  · exact .parse rfl

theorem Oversized.of_cons {n : Nat} {c : Char} {cs : List Char} (h : Oversized n (c :: cs))
    (hc : c ≠ '[') : Oversized n cs := by
  obtain ⟨hn, digits, hlen, hd, hle⟩ := h
  refine ⟨hn, digits, hlen, hd, (List.infix_cons_iff.mp hle).resolve_left fun hprefix => ?_⟩
  exact hc (List.cons_prefix_cons.mp hprefix).1.symm

end TypeSpec

/-- What stands behind the word `tuple` accounts for what is found when it is read behind empty
parentheses instead. -/
theorem Failure.Accounted.of_parens {cs suffix : List Char} {e : Failure}
    (h : e.Accounted ('(' :: ')' :: suffix)) (hle : suffix <:+: cs) : e.Accounted cs := by
  cases h with
  | parse own => exact .parse own
  | digitLimit oversized =>
    exact .digitLimit (((oversized.of_cons (by decide)).of_cons (by decide)).mono hle)

namespace Param

theorem infix_of_tupleSuffix? {cs suffix : List Char} (h : tupleSuffix? cs = some suffix) :
    suffix <:+: cs := by
  rw [(tupleSuffix?_eq_some.mp h).1]
  exact (List.suffix_append _ suffix).isInfix

theorem failsIn_checkType (ty : String) (hasComponents : Bool) :
    FailsIn (Failure.Accounted ty.toList) (checkType ty hasComponents) := by
  unfold checkType
  split
  · next suffix hsuffix =>
    have hparse := TypeSpec.failsIn_parse ("()" ++ String.ofList suffix)
    rw [parens_append, String.toList_ofList, ← parens_append] at hparse
    exact (hparse.mono fun _ he => he.of_parens (infix_of_tupleSuffix? hsuffix)).bind
      fun _ _ => .check (.parse rfl)
  · refine (TypeSpec.failsIn_parse ty).bind fun t _ => ?_
    split
    · exact .error (.parse rfl)
    · split
      · exact .error (.parse rfl)
      · exact .check (.parse rfl)

/-- Behind the word `tuple` the text goes on as it was. -/
theorem replaced_behindTuple {ty : Utf16} {suffix : List Char}
    (h : tupleSuffix? ty.replaced.toList = some suffix) :
    (Utf16.ofString "()" ++ behindTuple ty).replaced.toList = '(' :: ')' :: suffix := by
  obtain ⟨us, hus, hsuffix⟩ :=
    Utf16.units_of_replaced_append (tupleSuffix?_eq_some.mp h).1 (by decide)
  have hbehind : behindTuple ty = ⟨us⟩ := by
    rw [behindTuple, hus]
    rfl
  rw [hbehind, ← hsuffix]
  exact Utf16.replaced_mk_ofChars_append ['(', ')'] us

theorem failsIn_readType (ty : Utf16) (hasComponents : Bool) :
    FailsIn (Failure.Accounted ty.replaced.toList) (readType ty hasComponents) := by
  unfold readType
  cases hty : ty.toString? with
  | some s =>
    obtain rfl := Utf16.toString?_eq_some_iff.mp hty
    rw [Utf16.replaced_ofString]
    exact (failsIn_checkType s hasComponents).map
  | none =>
    refine .error ?_
    split
    · next htuple =>
      obtain ⟨suffix, hsuffix⟩ := Option.isSome_iff_exists.mp htuple
      have h := TypeSpec.accounted_refusal (Utf16.ofString "()" ++ behindTuple ty)
      rw [replaced_behindTuple hsuffix] at h
      exact h.of_parens (infix_of_tupleSuffix? hsuffix)
    · exact TypeSpec.accounted_refusal ty

section
variable (x : Json) (fields : List (Utf16 × Json))

theorem failsIn_typeField : FailsIn (Failure.AccountedIn x) (typeField fields) := by
  unfold typeField
  split
  · exact .ok _
  · exact .error (.parse rfl)

theorem failsIn_nameField : FailsIn (Failure.AccountedIn x) (nameField fields) := by
  unfold nameField
  split
  · exact .ok _
  · exact .ok _
  · exact failsIn_checkName x _ _ _
  · exact .error (.parse rfl)

theorem failsIn_componentsField : FailsIn (Failure.AccountedIn x) (componentsField fields) := by
  unfold componentsField
  split
  · exact .ok _
  · exact .ok _
  · exact .check (.parse rfl)

theorem failsIn_internalTypeField :
    FailsIn (Failure.AccountedIn x) (internalTypeField fields) := by
  unfold internalTypeField
  split
  · exact .ok _
  · exact .ok _
  · exact .ok _
  · exact .error (.parse rfl)

end

variable {fields : List (Utf16 × Json)}

theorem inside_of_componentsField {items : List Json} {y : Json}
    (h : componentsField fields = .ok items) (hy : y ∈ items) : Json.Inside y (.object fields) := by
  unfold componentsField at h
  split at h
  · cases h
    cases hy
  · next hfield =>
    cases h
    exact .value hfield (.item hy .refl)
  · split at h
    · cases h
      cases hy
    · cases h

theorem failsIn_decode (n : Nat) (x : Json) : FailsIn (Failure.AccountedIn x) (decode n x) := by
  induction n generalizing x with
  | zero => exact .error (.parse rfl)
  | succ n ih =>
    cases x with
    | object fields =>
      rw [decode]
      refine (failsIn_typeField _ fields).bind fun ty hty => ?_
      refine (failsIn_nameField _ fields).bind fun name _ => ?_
      refine (failsIn_componentsField _ fields).bind fun items hitems => ?_
      have htype : Json.Inside (.string ty) (.object fields) :=
        .value (typeField_eq_ok.mp hty) .refl
      refine ((failsIn_readType ty _).mono fun e he => he.accountedIn.mono htype).bind fun s _ => ?_
      refine (failsIn_internalTypeField _ fields).bind fun internalType _ => ?_
      have hmembers : FailsIn (Failure.AccountedIn (.object fields)) (items.mapM (decode n)) :=
        .mapM fun y hy => (ih y).mono fun e he => he.mono (inside_of_componentsField hitems hy)
      exact hmembers.bind fun components _ => .ok _
    | _ => exact .error (.parse rfl)

theorem failsIn_ofJson (x : Json) : FailsIn (Failure.AccountedIn x) (ofJson x) :=
  failsIn_decode _ x

theorem failsIn_indexedField (x : Json) : FailsIn (Failure.AccountedIn x) (indexedField x) := by
  unfold indexedField
  split
  · split
    · exact .ok _
    · exact .ok _
    · exact .error (.parse rfl)
  · exact .error (.parse rfl)

theorem failsIn_eventInputOfJson (x : Json) :
    FailsIn (Failure.AccountedIn x) (eventInputOfJson x) :=
  (failsIn_ofJson x).bind fun _ _ => (failsIn_indexedField x).bind fun _ _ => .ok _

end Param

theorem Mutability.failsIn_ofFields (x : Json) (fields : List (Utf16 × Json))
    (default : Mutability) : FailsIn (Failure.AccountedIn x) (ofFields fields default) := by
  have older : FailsIn (Failure.AccountedIn x) (if ofFields.isSet fields "payable" then .ok payable
      else if ofFields.isSet fields "constant" then .ok view else .ok default) := by
    split
    · exact .ok _
    · split <;> exact .ok _
  unfold ofFields
  split
  · exact older
  · exact older
  · split
    · exact .ok _
    · exact .error (.parse rfl)
  · exact .error (.parse rfl)

namespace Item

section
variable (x : Json) (fields : List (Utf16 × Json))

theorem failsIn_tagField : FailsIn (Failure.AccountedIn x) (tagField fields) := by
  unfold tagField
  split
  · exact .ok _
  · split
    · exact .ok _
    · exact .error (.parse rfl)
  · exact .error (.parse rfl)

theorem failsIn_nameField? (kind : Kind) :
    FailsIn (Failure.AccountedIn x) (nameField? kind fields) := by
  unfold nameField?
  split
  · exact .ok _
  · exact .ok _
  · exact (failsIn_checkName x _ _ _).map
  · exact .error (.parse rfl)

theorem failsIn_requireName (kind : Kind) (name? : Option String) :
    FailsIn (Failure.AccountedIn x) (requireName kind name?) := by
  cases name? with
  | some name => exact .ok name
  | none => exact .error (.parse rfl)

theorem failsIn_anonymousField : FailsIn (Failure.AccountedIn x) (anonymousField fields) := by
  unfold anonymousField
  split
  · exact .ok _
  · exact .ok _
  · exact .error (.parse rfl)

end

theorem failsIn_paramsField {decode : Json → Except Failure Param}
    (hdecode : ∀ y, FailsIn (Failure.AccountedIn y) (decode y)) (key : String)
    (fields : List (Utf16 × Json)) :
    FailsIn (Failure.AccountedIn (.object fields)) (paramsField decode key fields) := by
  unfold paramsField
  split
  · exact .ok _
  · exact .ok _
  · next items hfield =>
    exact .mapM fun y hy => (hdecode y).mono fun e he => he.mono (.value hfield (.item hy .refl))
  · exact .error (.parse rfl)

theorem failsIn_ofFields (fields : List (Utf16 × Json)) (name? : Option String) (kind : Kind) :
    FailsIn (Failure.AccountedIn (.object fields)) (ofFields fields name? kind) := by
  have hname := failsIn_requireName (.object fields) kind name?
  have hinputs := failsIn_paramsField Param.failsIn_ofJson "inputs" fields
  have houtputs := failsIn_paramsField Param.failsIn_ofJson "outputs" fields
  have hevent := failsIn_paramsField Param.failsIn_eventInputOfJson "inputs" fields
  have hmutability := Mutability.failsIn_ofFields (.object fields) fields
  cases kind with
  | constructor => exact hinputs.bind fun _ _ => (hmutability _).bind fun _ _ => .ok _
  | fallback => exact (hmutability _).bind fun _ _ => .ok _
  | receive => exact (hmutability _).bind fun _ _ => .ok _
  | function =>
    exact hname.bind fun _ _ => hinputs.bind fun _ _ => houtputs.bind fun _ _ =>
      (hmutability _).bind fun _ _ => .ok _
  | event =>
    exact (failsIn_anonymousField _ fields).bind fun _ _ => hname.bind fun _ _ =>
      hevent.bind fun _ _ => .ok _
  | error => exact hname.bind fun _ _ => hinputs.bind fun _ _ => .ok _

theorem failsIn_ofJson (x : Json) : FailsIn (Failure.AccountedIn x) (ofJson x) := by
  cases x with
  | object fields =>
    exact (failsIn_tagField _ fields).bind fun kind _ =>
      (failsIn_nameField? _ fields kind).bind fun name? _ => failsIn_ofFields fields name? kind
  | _ => exact .error (.parse rfl)

end Item

end ContractInterface

import ContractInterface.Proofs.Declaration
import ContractInterface.Proofs.TypeSpec.Oversized
import ContractInterface.Proofs.TypedData.Definition

/-! Why a text is refused as a declaration or as a definition of typed data. Lists are read from
parts of the text, so whatever stands in a part that accounts for a failure stands in the text. -/
namespace ContractInterface
open Sequencing Text

theorem failsIn_checkIdentifier (cs : List Char) (name : String) (context : Option String)
    (allowEmpty : Bool) :
    FailsIn (Failure.Accounted cs) (checkIdentifier name context allowEmpty) := by
  unfold checkIdentifier
  split
  · exact .ok name
  · exact .error (.parse rfl)

theorem failsIn_cut (cs : List Char) (text : Utf16) (body : List Char) :
    FailsIn (Failure.Accounted cs) ((TopLevel.cut ',' 1 body).mapError (Failure.typeText text)) :=
  .mapError fun _ _ => .parse rfl

section
variable {α : Type} {f : String → Except Failure α}
  (hf : ∀ s, FailsIn (Failure.Accounted s.toList) (f s)) {cs : List Char}
include hf

/-- A text accounts for what is read from a part of it. -/
theorem failsIn_part {part : List Char} (hle : part <:+: cs) :
    FailsIn (Failure.Accounted cs) (f (.ofList part)) := by
  have hpart := hf (.ofList part)
  rw [String.toList_ofList] at hpart
  exact hpart.mono fun _ he => he.mono hle

theorem failsIn_parts {parts : List (List Char)} (hle : ∀ part ∈ parts, part <:+: cs) :
    FailsIn (Failure.Accounted cs) (parts.mapM fun part => f (.ofList part)) :=
  .mapM fun part hpart => failsIn_part hf (hle part hpart)

end

theorem Param.failsIn_parse (ty name : String) :
    FailsIn (Failure.Accounted ty.toList) (Param.parse ty name) := (TypeSpec.failsIn_parse ty).map

namespace Declaration

theorem infix_of_words (cs : List Char) : (words cs).1 <:+: cs :=
  (List.takeWhile_prefix _).isInfix.trans (List.dropWhile_suffix _).isInfix

theorem failsIn_parseParam (text : String) (requireName : Bool) :
    FailsIn (Failure.Accounted text.toList) (parseParam text requireName) := by
  have hle := infix_of_words text.toList
  unfold parseParam
  generalize words text.toList = w at hle
  obtain ⟨ty, name⟩ := w
  dsimp only
  split
  · exact .error (.parse rfl)
  · refine (failsIn_checkIdentifier _ _ _ _).bind fun name _ => ?_
    exact (failsIn_part TypeSpec.failsIn_parse hle).bind fun _ _ => .ok _

theorem failsIn_readParams (text : String) (requireNames : Bool) (cs : List Char) :
    FailsIn (Failure.Accounted cs) (readParams text requireNames cs) := by
  refine (failsIn_cut cs text cs).bind fun ⟨pieces, rest⟩ hcut => ?_
  have hpieces := (TopLevel.infix_of_cut (mapError_eq_ok.mp hcut)).2
  exact (failsIn_parts (failsIn_parseParam · requireNames) hpieces).bind fun _ _ => .ok _

theorem suffix_of_readParams {text : String} {requireNames : Bool} {cs rest : List Char}
    {ps : List Param} (h : readParams text requireNames cs = .ok (ps, rest)) : rest <:+ cs := by
  obtain ⟨pieces, hcut, -⟩ := readParams_eq_ok.mp h
  exact (TopLevel.infix_of_cut hcut).1

theorem failsIn_parse (text : String) (requireNames allowOutputs : Bool) :
    FailsIn (Failure.Accounted text.toList) (parse text requireNames allowOutputs) := by
  have hle : (trimmed text).toList <:+: text.toList := by
    rw [trimmed, String.toList_ofList]
    exact TypeSpec.trim_isInfix _
  unfold parse
  dsimp only
  generalize trimmed text = s at hle
  suffices h : FailsIn (Failure.Accounted s.toList) _ from h.mono fun _ he => he.mono hle
  split
  · exact .error (.parse rfl)
  · next c body hbody =>
    have hbody := Identifier.suffix_parenthesis hbody
    refine (failsIn_checkIdentifier _ _ _ _).bind fun name _ => ?_
    refine ((failsIn_readParams s requireNames body).mono
      fun _ he => he.mono hbody.isInfix).bind fun ⟨inputs, rest⟩ hinputs => ?_
    have hrest := (suffix_of_readParams hinputs).trans hbody
    have hend : ∀ (outputs : Option (List Param)) (last : List Char),
        FailsIn (Failure.Accounted s.toList)
          (if last.isEmpty = true then .ok (⟨name, inputs, outputs⟩ : Declaration)
            else .error (.typeText s (.textAfterList (.ofList last)))) := by
      intro outputs last
      split
      · exact .ok _
      · exact .error (.parse rfl)
    dsimp only at hrest ⊢
    split
    · next body' =>
      have hbody' := (List.suffix_cons '(' body').trans hrest
      exact ((failsIn_readParams s requireNames body').mono
        fun _ he => he.mono hbody'.isInfix).map.bind fun _ _ => hend _ _
    · exact hend none rest

end Declaration

namespace TypedData

theorem Member.failsIn_parse (text : String) :
    FailsIn (Failure.Accounted text.toList) (Member.parse text) := by
  unfold Member.parse
  dsimp only
  split
  · exact .error (.parse rfl)
  · next c ty hty =>
    have hle : ty.reverse <:+: text.toList := by
      rw [← List.reverse_infix, List.reverse_reverse]
      exact ((List.suffix_cons c ty).trans (hty ▸ List.dropWhile_suffix _)).isInfix
    have hparse := failsIn_part TypeSpec.failsIn_parse ((TypeSpec.trim_isInfix _).trans hle)
    exact hparse.bind fun _ _ => .ok _

namespace Definition

theorem failsIn_read (cs : List Char) : FailsIn (Failure.Accounted cs) (read cs) := by
  unfold read
  split
  · exact .error (.parse rfl)
  · next c body hbody =>
    have hbody := Identifier.suffix_parenthesis hbody
    refine (failsIn_checkIdentifier _ _ _ _).bind fun name _ => ?_
    split
    · exact .error (.parse rfl)
    · next pieces rest hcut =>
      have hpieces : ∀ piece ∈ pieces, piece <:+: cs := fun piece hpiece =>
        ((TopLevel.infix_of_cut hcut).2 piece hpiece).trans hbody.isInfix
      exact (failsIn_parts Member.failsIn_parse hpieces).bind fun _ _ => .ok _

theorem suffix_of_read {cs rest : List Char} {d : Definition} (h : read cs = .ok (d, rest)) :
    rest <:+ cs := by
  rw [(append_of_read h).1]
  exact List.suffix_append _ rest

end Definition

namespace Reading

/-- Nothing but a size of too many digits keeps a text from being read up to where it can be. -/
theorem failsIn_read (cs : List Char) :
    FailsIn (fun e => ∃ n, e = .digitLimit n ∧ TypeSpec.Oversized n cs) (Reading.read cs) := by
  induction cs using Reading.read.induct with
  | case1 cs failure hread own =>
    rw [read_of_error hread, if_pos own]
    exact .ok _
  | case2 cs failure hread other =>
    rw [read_of_error hread, if_neg other]
    cases Definition.failsIn_read cs failure hread with
    | parse own => exact absurd own other
    | digitLimit oversized => exact .error ⟨_, rfl, oversized⟩
  | case3 cs d rest hread _ ih =>
    have hrest := (Definition.suffix_of_read hread).isInfix
    rw [read_of_definition hread]
    exact (ih.mono fun _ ⟨n, he, oversized⟩ => ⟨n, he, oversized.mono hrest⟩).map

end Reading

theorem Member.parse_eq_error {ty name : List Char} {e : Failure} (hname : ' ' ∉ name)
    (hty : TypeSpec.parse (.ofList (trim ty)) = .error e) :
    Member.parse (.ofList (ty ++ ' ' :: name)) = .error e := by
  have hdrop : (ty ++ ' ' :: name).reverse.dropWhile (· ≠ ' ') = ' ' :: ty.reverse :=
    (Member.span_reverse hname).2
  unfold Member.parse
  rw [String.toList_ofList]
  dsimp only
  rw [hdrop]
  dsimp only
  rw [List.reverse_reverse, hty]
  rfl

theorem Definition.read_eq_error {name member : List Char} {e : Failure}
    (hname : Identifier.isValid name = true) (hclosed : TopLevel.Closed ',' false member)
    (hblank : dropBlank member ≠ []) (hmember : Member.parse (.ofList member) = .error e)
    (rest : List Char) : Definition.read (name ++ '(' :: (member ++ ')' :: rest)) = .error e := by
  obtain ⟨htake, hdrop⟩ := Identifier.span_parenthesis hname (member ++ ')' :: rest)
  have hcut : TopLevel.cut ',' 1 (member ++ ')' :: rest) = .ok ([member], rest) := by
    have h := @TopLevel.cut_intercalate ',' (by decide) (by decide) rest [member]
      (by simpa using hclosed) (by simpa using hblank)
    rwa [List.intercalate_singleton] at h
  unfold Definition.read
  rw [hdrop, htake]
  dsimp only
  rw [checkIdentifier_false_eq_ok.mpr ⟨rfl, by rwa [String.toList_ofList]⟩, hcut]
  simp only [List.mapM_cons, hmember]
  rfl

/-- A size of too many digits in a definition fails the reading of the whole text. -/
theorem Reading.parse_oversized {digits : List Char} (hd : ∀ c ∈ digits, c.isDigit = true)
    (hlimit : digitLimit < digits.length) :
    Reading.parse ("A(bool[" ++ .ofList digits ++ "] b)") = .error (.digitLimit digits.length) := by
  have hbool : Identifier.isValid ['b', 'o', 'o', 'l'] = true := by decide
  have hparse := TypeSpec.parse_oversized hbool hd hlimit
  rw [← TypeSpec.trim_bracketed hbool digits] at hparse
  have hmember := Member.parse_eq_error (by decide : ' ' ∉ ['b']) hparse
  have hclosed : TopLevel.Closed ',' false
      (['b', 'o', 'o', 'l'] ++ '[' :: digits ++ [']'] ++ [' ', 'b']) := by
    have hword : TopLevel.Closed ',' false ['b', 'o', 'o', 'l'] :=
      TypeSpec.isPart_closed (Identifier.isPart_of_mem hbool)
    have hdigits : TopLevel.Closed ',' false digits := TypeSpec.isPart_closed fun c hc => by
      simp [Identifier.isPart, Char.isAlphanum, hd c hc]
    have hsize : TopLevel.Closed ',' false ('[' :: digits) :=
      .cons (by decide) (by decide) (.inr (by decide)) hdigits
    have hend : ∀ c ∈ [']'], c ≠ '(' ∧ c ≠ ')' ∧ (false = true ∨ c ≠ ',') := by simp
    have hname : ∀ c ∈ [' ', 'b'], c ≠ '(' ∧ c ≠ ')' ∧ (false = true ∨ c ≠ ',') := by simp
    exact ((hword.append hsize).append (.of_forall hend)).append (.of_forall hname)
  have hread := Definition.read_eq_error (by decide : Identifier.isValid ['A'] = true) hclosed
    (by simp [dropBlank_cons (by decide : isBlank 'b' = false)]) hmember []
  have htext : ("A(bool[" ++ String.ofList digits ++ "] b)").toList = ['A'] ++
      '(' :: (['b', 'o', 'o', 'l'] ++ '[' :: digits ++ [']'] ++ [' ', 'b'] ++ [')']) := by simp
  rw [Reading.parse, htext, read_of_error hread]
  rfl

end TypedData

open TypedData

/-- Every reader reads a text or refuses it with a failure of the text, except that a size of too
many digits in it is refused as a number. Only such a size keeps a reading of definitions from
coming to its end. -/
theorem Failure.accounted_of_text (s : String) :
    FailsIn (Failure.Accounted s.toList) (TypeSpec.parse s) ∧
    (∀ name, FailsIn (Failure.Accounted s.toList) (Param.parse s name)) ∧
    (∀ requireName, FailsIn (Failure.Accounted s.toList) (Declaration.parseParam s requireName)) ∧
    FailsIn (Failure.Accounted s.toList) (ErrorItem.parse s) ∧
    FailsIn (Failure.Accounted s.toList) (FunctionItem.parse s) ∧
    FailsIn (Failure.Accounted s.toList) (Member.parse s) ∧
    FailsIn (Failure.Accounted s.toList) (Definition.parse s) ∧
    FailsIn (fun e => ∃ n, e = .digitLimit n ∧ TypeSpec.Oversized n s.toList) (Reading.parse s) ∧
    ((∀ n, ¬ TypeSpec.Oversized n s.toList) → ∃ r, Reading.parse s = .ok r) := by
  refine ⟨TypeSpec.failsIn_parse s, Param.failsIn_parse s, Declaration.failsIn_parseParam s,
    (Declaration.failsIn_parse s true false).map, (Declaration.failsIn_parse s false true).map,
    Member.failsIn_parse s, (Definition.failsIn_read s.toList).map,
    Reading.failsIn_read s.toList, fun h => ?_⟩
  cases hr : Reading.parse s with
  | ok r => exact ⟨r, rfl⟩
  | error e =>
    obtain ⟨n, -, oversized⟩ := Reading.failsIn_read s.toList e hr
    exact absurd oversized (h n)

theorem Failure.accounted_of_text_left :
    (∃ e, TypeSpec.parse "A(bool b)x" = .error e ∧ e.Accounted "A(bool b)x".toList) ∧
    (∃ e, ErrorItem.parse "A(bool b)x" = .error e ∧ e.Accounted "A(bool b)x".toList) ∧
    (∀ n, ¬ TypeSpec.Oversized n "A(bool b)x".toList) ∧
    ∃ r, Reading.parse "A(bool b)x" = .ok r := by
  have hsizes : ∀ n, ¬ TypeSpec.Oversized n "A(bool b)x".toList := by
    rintro n ⟨-, digits, -, -, hle⟩
    have hmem := hle.subset (List.mem_cons_self : '[' ∈ '[' :: (digits ++ [']']))
    revert hmem
    decide
  obtain ⟨htype, -, -, herror, -, -, -, -, hread⟩ := accounted_of_text "A(bool b)x"
  obtain ⟨e, he⟩ := exists_of_isNone_toOption (x := TypeSpec.parse "A(bool b)x") (by decide +kernel)
  obtain ⟨e', he'⟩ := exists_of_isNone_toOption (x := ErrorItem.parse "A(bool b)x")
    (by decide +kernel)
  exact ⟨⟨e, he, htype e he⟩, ⟨e', he', herror e' he'⟩, hsizes, hread hsizes⟩

/-- The refusal of such a size as a number is no failure of the text, and stops what should always
come to its end. -/
theorem Failure.not_isParse_of_oversized :
    TypeSpec.parse (.ofList (['b', 'o', 'o', 'l'] ++ '[' :: List.replicate 4301 '1' ++ [']'])) =
      .error (.digitLimit 4301) ∧
    Reading.parse ("A(bool[" ++ .ofList (List.replicate 4301 '1') ++ "] b)") =
      .error (.digitLimit 4301) ∧
    (Failure.digitLimit 4301).isParse = false := by
  have hd : ∀ c ∈ List.replicate 4301 '1', c.isDigit = true := by
    intro c hc
    rw [List.eq_of_mem_replicate hc]
    rfl
  have hlength : (List.replicate 4301 '1').length = 4301 := List.length_replicate
  have hlimit : Text.digitLimit < (List.replicate 4301 '1').length := by
    rw [hlength]
    decide
  have hbool : Identifier.isValid ['b', 'o', 'o', 'l'] = true := by decide
  have htype := TypeSpec.parse_oversized hbool hd hlimit
  have hreading := Reading.parse_oversized hd hlimit
  rw [hlength] at htype hreading
  exact ⟨htype, hreading, rfl⟩

end ContractInterface

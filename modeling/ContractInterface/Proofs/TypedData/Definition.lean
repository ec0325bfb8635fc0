import ContractInterface.Proofs.Names
import ContractInterface.Proofs.TopLevel
import ContractInterface.Proofs.TypeSpec.Reading
import ContractInterface.TypedData.Resolver

/-! Definitions of structs that are written as text and read again. A type may have blanks, commas
and parentheses in it; where the field ends is not mistaken for any of these. -/
namespace ContractInterface.TypedData
open Sequencing Text TypeSpec

/-- Seen from its end, a member is its name up to the first blank. -/
theorem Member.span_reverse {ty name : List Char} (h : ' ' ∉ name) :
    (ty ++ ' ' :: name).reverse.takeWhile (· ≠ ' ') = name.reverse ∧
      (ty ++ ' ' :: name).reverse.dropWhile (· ≠ ' ') = ' ' :: ty.reverse := by
  have hname : ∀ c ∈ name.reverse, decide (c ≠ ' ') = true := by
    intro c hc
    rw [decide_eq_true_eq]
    rintro rfl
    exact h (List.mem_reverse.mp hc)
  have hreverse : (ty ++ ' ' :: name).reverse = name.reverse ++ ' ' :: ty.reverse := by simp
  rw [hreverse, List.takeWhile_append_of_pos hname, List.dropWhile_append_of_pos hname]
  simp

namespace Definition

/-- A definition is a name, which is an identifier, and the members that are cut from the list
behind it. -/
theorem read_eq_ok {cs rest : List Char} {d : Definition} :
    read cs = .ok (d, rest) ↔
      ∃ body pieces, cs = d.name.toList ++ '(' :: body ∧
        Identifier.isValid d.name.toList = true ∧ TopLevel.cut ',' 1 body = .ok (pieces, rest) ∧
        List.Forall₂ (fun piece m => Member.parse (.ofList piece) = .ok m) pieces d.members ∧
        d.span = consumed cs rest := by
  unfold read
  constructor
  · intro h
    split at h
    · cases h
    · next c body hbody =>
      obtain ⟨name, hname, h⟩ := bind_eq_ok.mp h
      obtain ⟨rfl, hvalid⟩ := checkIdentifier_false_eq_ok.mp hname
      split at h
      · cases h
      · next pieces rest' hcut =>
        obtain ⟨members, hmembers, h⟩ := bind_eq_ok.mp h
        cases h
        refine ⟨body, pieces, ?_, hvalid, hcut, mapM_eq_ok.mp hmembers, rfl⟩
        rw [String.toList_ofList]
        exact Identifier.eq_append_parenthesis hbody
  · rintro ⟨body, pieces, hcs, hvalid, hcut, hmembers, hspan⟩
    obtain ⟨span, name, members⟩ := d
    dsimp only at *
    have hparens := Identifier.span_parenthesis hvalid body
    rw [← hcs] at hparens
    rw [hparens.2, hparens.1]
    dsimp only
    rw [String.ofList_toList, checkIdentifier_false_eq_ok.mpr ⟨rfl, hvalid⟩, hcut]
    refine bind_eq_ok.mpr ⟨name, rfl, ?_⟩
    exact bind_eq_ok.mpr ⟨members, mapM_eq_ok.mpr hmembers, by rw [hspan]⟩

/-- A definition is its span, and is read from there the same way whatever follows it. -/
theorem append_of_read {cs rest : List Char} {d : Definition} (h : read cs = .ok (d, rest)) :
    cs = d.span.toList ++ rest ∧ d.span.toList ≠ [] ∧
      ∀ tail, read (d.span.toList ++ tail) = .ok (d, tail) := by
  obtain ⟨body, pieces, rfl, hvalid, hcut, hmembers, hspan⟩ := read_eq_ok.mp h
  obtain ⟨inner, rfl, hinner⟩ := TopLevel.exists_append_of_cut (by decide) hcut
  have hassoc (tail : List Char) : d.name.toList ++ '(' :: (inner ++ tail) =
      (d.name.toList ++ '(' :: inner) ++ tail := by simp
  have htext : d.span.toList = d.name.toList ++ '(' :: inner := by
    rw [hspan, hassoc, consumed_append, String.toList_ofList]
  rw [htext]
  refine ⟨hassoc rest, by simp, fun tail => read_eq_ok.mpr ?_⟩
  refine ⟨inner ++ tail, pieces, (hassoc tail).symm, hvalid, hinner tail, hmembers, ?_⟩
  rw [consumed_append, ← htext, String.ofList_toList]

theorem parse_eq_ok {text : String} {d : Definition} :
    parse text = .ok d ↔ ∃ rest, read text.toList = .ok (d, rest) := by
  rw [parse, map_eq_ok]
  constructor
  · rintro ⟨⟨d, rest⟩, h, rfl⟩
    exact ⟨rest, h⟩
  · rintro ⟨rest, h⟩
    exact ⟨_, h, rfl⟩

end Definition

namespace StructField

/-- A type that can be read and an identifier. -/
structure WellFormed (f : StructField) : Prop where
  type : ∃ t, Written maxNesting f.ty.toList t
  name : Identifier.isValid f.name.toList = true

theorem wellFormed_of_ofMember {text : String} {m : Member} {f : StructField}
    (hm : Member.parse text = .ok m) (hf : ofMember m = .ok f) : f.WellFormed := by
  obtain ⟨name, hname, hf⟩ := bind_eq_ok.mp hf
  cases hf
  obtain ⟨rfl, hvalid⟩ := checkIdentifier_false_eq_ok.mp hname
  refine ⟨?_, hvalid⟩
  unfold Member.parse at hm
  dsimp only at hm
  split at hm
  · cases hm
  · obtain ⟨t, ht, hm⟩ := bind_eq_ok.mp hm
    cases hm
    have hw := parse_eq_ok.mp ht
    refine ⟨t, ?_⟩
    rwa [hw.span_eq, String.toList_ofList]

theorem toList_text (f : StructField) : f.text.toList = f.ty.toList ++ ' ' :: f.name.toList := by
  simp [text]

namespace WellFormed

variable {f : StructField}

theorem exists_parse (h : f.WellFormed) : ∃ t, TypeSpec.parse f.ty = .ok t := by
  obtain ⟨t, ht⟩ := h.type
  exact ⟨t, by simpa using ht.parse_ofList (Nat.le_refl _)⟩

theorem closed (h : f.WellFormed) : TopLevel.Closed ',' false f.text.toList := by
  obtain ⟨t, ht⟩ := h.type
  rw [toList_text]
  exact ht.closed.append (.cons (by decide) (by decide) (.inr (by decide))
    (isPart_closed (Identifier.isPart_of_mem h.name)))

theorem dropBlank_ne_nil (h : f.WellFormed) : dropBlank f.text.toList ≠ [] := by
  obtain ⟨t, ht⟩ := h.type
  obtain ⟨c, r, hty, hc, -⟩ := ht.exists_cons_not_isBlank
  rw [toList_text, hty, List.cons_append, dropBlank_cons hc]
  simp

theorem span_reverse (h : f.WellFormed) :
    f.text.toList.reverse.takeWhile (· ≠ ' ') = f.name.toList.reverse ∧
      f.text.toList.reverse.dropWhile (· ≠ ' ') = ' ' :: f.ty.toList.reverse := by
  rw [toList_text]
  exact Member.span_reverse fun hmem => by cases Identifier.isPart_of_mem h.name _ hmem

/-- A field is read again, for its last blank stands in front of its name. -/
theorem exists_parse_text (h : f.WellFormed) :
    ∃ m, Member.parse f.text = .ok m ∧ ofMember m = .ok f := by
  obtain ⟨t, ht⟩ := h.type
  obtain ⟨htake, hdrop⟩ := h.span_reverse
  have hspan : t.span = f.ty := by rw [ht.span_eq, String.ofList_toList]
  have hparse : TypeSpec.parse f.ty = .ok t := by simpa using ht.parse_ofList (Nat.le_refl _)
  have htrim : trim f.name.toList = f.name.toList := by
    simpa using (Written.named (n := 0) h.name .nil).trim_eq
  have hname : checkIdentifier f.name (some "property name") false = .ok f.name :=
    checkIdentifier_false_eq_ok.mpr ⟨rfl, h.name⟩
  refine ⟨⟨t, f.name⟩, ?_, ?_⟩
  · rw [Member.parse, hdrop, htake]
    dsimp only
    rw [List.reverse_reverse, List.reverse_reverse, ht.trim_eq, String.ofList_toList, hparse,
      htrim, String.ofList_toList]
    rfl
  · rw [ofMember, hname]
    simp only [bind, Except.bind, hspan]

end WellFormed

end StructField

namespace Struct

/-- The name and all fields are as they may stand in a definition. -/
structure WellFormed (s : Struct) : Prop where
  name : Identifier.isValid s.name.toList = true
  fields : ∀ f ∈ s.fields, f.WellFormed

/-- The struct was read as a definition and checked. -/
def Obtained (s : Struct) : Prop :=
  ∃ text d, Definition.parse text = .ok d ∧ ofDefinition d = .ok s

theorem Obtained.wellFormed {s : Struct} (h : s.Obtained) : s.WellFormed := by
  obtain ⟨text, d, hd, hs⟩ := h
  obtain ⟨name, hname, hs⟩ := bind_eq_ok.mp hs
  obtain ⟨fields, hfields, hs⟩ := bind_eq_ok.mp hs
  cases hs
  obtain ⟨rfl, hvalid⟩ := checkIdentifier_false_eq_ok.mp hname
  refine ⟨hvalid, ?_⟩
  intro f hf
  obtain ⟨m, hm, hmf⟩ := exists_of_mem_of_mapM_eq_ok hfields hf
  obtain ⟨rest, hread⟩ := Definition.parse_eq_ok.mp hd
  obtain ⟨-, pieces, -, -, -, hmembers, -⟩ := Definition.read_eq_ok.mp hread
  obtain ⟨piece, _, hpiece⟩ := exists_of_mem_of_mapM_eq_ok (mapM_eq_ok.mpr hmembers) hm
  exact StructField.wellFormed_of_ofMember hpiece hmf

theorem name_of_ofDefinition {d : Definition} {s : Struct} (h : ofDefinition d = .ok s) :
    d.name = s.name := by
  obtain ⟨name, hname, h⟩ := bind_eq_ok.mp h
  obtain ⟨fields, _, h⟩ := bind_eq_ok.mp h
  cases h
  exact (checkIdentifier_false_eq_ok.mp hname).1.symm

theorem toList_text (s : Struct) :
    s.text.toList = s.name.toList ++
      '(' :: ([','].intercalate (s.fields.map fun f => f.text.toList) ++ [')']) := by
  simp [text, String.toList_intercalate, List.map_map, Function.comp_def]

/-- The list of fields is cut where the fields end, and nowhere else. -/
theorem WellFormed.cut_fields {s : Struct} (h : s.WellFormed) (rest : List Char) :
    TopLevel.cut ',' 1 ([','].intercalate (s.fields.map fun f => f.text.toList) ++ ')' :: rest) =
      .ok (s.fields.map fun f => f.text.toList, rest) := by
  apply TopLevel.cut_intercalate (by decide) (by decide)
  · intro p hp
    obtain ⟨f, hf, rfl⟩ := List.mem_map.mp hp
    exact (h.fields f hf).closed
  · intro p hp
    obtain ⟨f, hf, rfl⟩ := List.mem_map.mp hp
    exact (h.fields f hf).dropBlank_ne_nil

/-- A definition at the start of a text is read again, and nothing of what follows it. -/
theorem WellFormed.exists_read {s : Struct} (h : s.WellFormed) (rest : List Char) :
    ∃ d, Definition.read (s.text.toList ++ rest) = .ok (d, rest) ∧ ofDefinition d = .ok s := by
  obtain ⟨members, hmembers, hfields⟩ :=
    exists_mapM_eq_ok fun f hf => (h.fields f hf).exists_parse_text
  have hparse : List.Forall₂ (fun piece m => Member.parse (.ofList piece) = .ok m)
      (s.fields.map fun f => f.text.toList) members := by
    rw [List.forall₂_map_left_iff]
    simpa using mapM_eq_ok.mp hmembers
  have htext : s.text.toList ++ rest = s.name.toList ++ '(' ::
      ([','].intercalate (s.fields.map fun f => f.text.toList) ++ ')' :: rest) := by
    rw [toList_text]
    simp
  refine ⟨⟨s.text, s.name, members⟩, ?_, ?_⟩
  · refine Definition.read_eq_ok.mpr ⟨_, _, htext, h.name, h.cut_fields rest, hparse, ?_⟩
    rw [consumed_append, String.ofList_toList]
  · rw [ofDefinition, checkIdentifier_false_eq_ok.mpr ⟨rfl, h.name⟩]
    simp only [bind, Except.bind, hfields]

end Struct

namespace Reading

theorem read_of_definition {cs rest : List Char} {d : Definition}
    (h : Definition.read cs = .ok (d, rest)) :
    read cs = (read rest).map fun r => { r with definitions := d :: r.definitions } := by
  rw [read]
  split
  · next e he => cases h.symm.trans he
  · next d' rest' hd =>
    cases h.symm.trans hd
    rfl

theorem read_of_error {cs : List Char} {e : Failure} (h : Definition.read cs = .error e) :
    read cs = if e.isParse then .ok ⟨[], .ofList cs, e, leftOver (.ofList cs) e⟩ else .error e := by
  rw [read]
  split
  · next e' he =>
    cases h.symm.trans he
    rfl
  · next hd => cases h.symm.trans hd

end Reading

end ContractInterface.TypedData

import ContractInterface.Proofs.Declaration.Canonical
import ContractInterface.Proofs.Item.Decoding
import ContractInterface.Proofs.Signature

/-! Signatures that are read again. In JSON the levels of a parameter are bounded and in a text the
tuples that are open, and a tuple without components takes no level for what is inside it. So
one more tuple may lie inside the others in JSON than may be open in a text. -/
namespace ContractInterface
open Sequencing Text

namespace Param
open TypeSpec Declaration

theorem WellFormed.noBlank {n : Nat} {p : Param} (h : WellFormed n p) :
    NoBlank p.canonicalType.toList := by
  induction h with
  | @mk n name ty components internalType name_ok type_ok annotated members ih =>
    generalize (!components.isEmpty) = hasComponents at type_ok
    cases type_ok with
    | tuple dims =>
      rw [toList_canonicalType_tuple dims]
      exact noBlank_tuple (List.forall_mem_map.mpr ih) dims
    | named identifier ne_tuple dims =>
      rw [toList_canonicalType_named identifier ne_tuple dims]
      exact noBlank_named identifier dims

/-- The type that is shown can be told apart in a list, and is read if no more tuples are open in
it than may be. -/
structure Reread (p : Param) : Prop where
  closed : TopLevel.Closed ',' false p.canonicalType.toList
  nonblank : dropBlank p.canonicalType.toList ≠ []
  parse_iff : (∃ t, TypeSpec.parse p.canonicalType = .ok t) ↔ p.nesting ≤ maxNesting
  parseParam_iff : (∃ q, parseParam p.canonicalType false = .ok q) ↔ p.nesting ≤ maxNesting

theorem WellFormed.reread {n : Nat} {p : Param} (h : WellFormed n p) : p.Reread := by
  obtain ⟨t, hw, -, hnesting⟩ := h.exists_written_nesting
  obtain ⟨c, r, hcons, hc, -⟩ := hw.exists_cons_not_isBlank
  have hparse : (∃ t, TypeSpec.parse p.canonicalType = .ok t) ↔ p.nesting ≤ maxNesting := by
    rw [← hnesting, ← hw.exists_parse_iff, String.ofList_toList]
  refine ⟨hw.closed, ?_, hparse, ?_⟩
  · rw [hcons, dropBlank_cons hc]
    simp
  · have hwords := words_eq_self h.noBlank (by simp [hcons])
    rw [← hparse]
    constructor
    · rintro ⟨q, hq⟩
      obtain ⟨ty, name, t, heq, ht, -, -⟩ := parseParam_eq_ok.mp hq
      cases hwords.symm.trans heq
      exact ⟨t, by rwa [String.ofList_toList] at ht⟩
    · rintro ⟨t, ht⟩
      rw [← String.ofList_toList (s := p.canonicalType)] at ht
      exact ⟨_, parseParam_eq_ok.mpr ⟨_, _, t, hwords, ht, .inl ⟨rfl, rfl⟩, rfl⟩⟩

theorem WellFormedInput.reread {p : Param} (h : p.WellFormedInput) : p.Reread := by
  obtain ⟨q, indexed, hq, rfl⟩ := h
  have := hq.reread
  exact ⟨by simpa using this.closed, by simpa using this.nonblank, by simpa using this.parse_iff,
    by simpa using this.parseParam_iff⟩

theorem parted_canonicalTypes {ps : List Param} (h : ∀ p ∈ ps, p.Reread) :
    Parted (ps.map canonicalType) where
  closed := List.forall_mem_map.mpr fun p hp => (h p hp).closed
  nonblank := List.forall_mem_map.mpr fun p hp => (h p hp).nonblank

/-- The parameters are read one by one from the types that are shown of the others. -/
def ReadFrom : List Param → List Param → Prop :=
  List.Forall₂ fun p q => parseParam p.canonicalType false = .ok q

theorem exists_readFrom {ps : List Param} (h : ∀ p ∈ ps, p.Reread) :
    (∃ qs, ReadFrom ps qs) ↔ ∀ p ∈ ps, p.nesting ≤ maxNesting := by
  rw [← forall₂_congr fun p hp => (h p hp).parseParam_iff]
  simp only [ReadFrom, ← mapM_eq_ok, exists_mapM_iff]

end Param

section
open Param Declaration

variable {name : String} {ps : List Param}

theorem signature_eq_append {outputs? : Option (List Param)} : signature name ps outputs? =
    name ++ Declaration.listText (ps.map canonicalType) ++
      secondList (outputs?.map (·.map canonicalType)) := by
  cases outputs? <;>
    simp [signature, secondList, Declaration.listText, Param.listText, canonicalTypes_eq_map]

theorem parseFunction_signature (hn : Identifier.isValid name.toList = true)
    (hp : ∀ p ∈ ps, p.Reread) {outputs? : Option (List Param)}
    (ho : ∀ qs, outputs? = some qs → ∀ q ∈ qs, q.Reread) {d : Declaration} :
    parseFunction (signature name ps outputs?) = .ok d ↔
      d.name = name ∧ ReadFrom ps d.inputs ∧ Option.Rel ReadFrom outputs? d.outputs := by
  have hparted : ∀ texts, outputs?.map (·.map canonicalType) = some texts → Parted texts := by
    intro texts htexts
    obtain ⟨qs, hqs, rfl⟩ := Option.map_eq_some_iff.mp htexts
    exact parted_canonicalTypes (ho qs hqs)
  rw [signature_eq_append, parseFunction_eq_ok hn (parted_canonicalTypes hp) hparted,
    List.forall₂_map_left_iff]
  refine and_congr_right fun _ => and_congr_right fun _ => ?_
  cases outputs? <;> cases d.outputs <;> simp [ReadFrom]

/-- A signature is read as a function if no more tuples are open in it than may be. The function
has the name that is shown, and inputs that are read from the types that are shown. -/
theorem FunctionItem.parse_signature (hn : Identifier.isValid name.toList = true)
    (hp : ∀ p ∈ ps, p.Reread) (outputs? : Option (List Param))
    (ho : ∀ qs, outputs? = some qs → ∀ q ∈ qs, q.Reread) :
    ((∃ g, FunctionItem.parse (ContractInterface.signature name ps outputs?) = .ok g) ↔
      (∀ p ∈ ps, p.nesting ≤ maxNesting) ∧
        ∀ qs, outputs? = some qs → ∀ q ∈ qs, q.nesting ≤ maxNesting) ∧
    ∀ g, FunctionItem.parse (ContractInterface.signature name ps outputs?) = .ok g →
      g.name = name ∧ ReadFrom ps g.inputs := by
  refine ⟨⟨?_, ?_⟩, ?_⟩
  · rintro ⟨g, hg⟩
    obtain ⟨d, hd, -⟩ := map_eq_ok.mp hg
    obtain ⟨-, hinputs, houtputs⟩ := (parseFunction_signature hn hp ho).mp hd
    refine ⟨(exists_readFrom hp).mp ⟨_, hinputs⟩, ?_⟩
    rintro qs rfl
    generalize d.outputs = os at houtputs
    cases houtputs with
    | some hqs => exact (exists_readFrom (ho qs rfl)).mp ⟨_, hqs⟩
  · rintro ⟨hinputs, houtputs⟩
    obtain ⟨inputs, hinputs⟩ := (exists_readFrom hp).mpr hinputs
    obtain ⟨outputs, houtputs⟩ : ∃ os, Option.Rel ReadFrom outputs? os := by
      cases outputs? with
      | none => exact ⟨none, .none⟩
      | some qs =>
        obtain ⟨os, hos⟩ := (exists_readFrom (ho qs rfl)).mpr (houtputs qs rfl)
        exact ⟨some os, .some hos⟩
    have hd := (parseFunction_signature (d := ⟨name, inputs, outputs⟩) hn hp ho).mpr
      ⟨rfl, hinputs, houtputs⟩
    exact ⟨_, map_eq_ok.mpr ⟨_, hd, rfl⟩⟩
  · intro g hg
    obtain ⟨d, hd, rfl⟩ := map_eq_ok.mp hg
    obtain ⟨hname, hinputs, -⟩ := (parseFunction_signature hn hp ho).mp hd
    exact ⟨hname, hinputs⟩

/-- The text is read as a function exactly if in none of the inputs more tuples are open than may
be, and then as one of that name, whose inputs are read from the types that are shown. -/
structure ReadBack (text name : String) (inputs : List Param) : Prop where
  parse_iff : (∃ g, FunctionItem.parse text = .ok g) ↔ ∀ p ∈ inputs, p.nesting ≤ maxNesting
  same : ∀ g, FunctionItem.parse text = .ok g → g.name = name ∧ ReadFrom inputs g.inputs

theorem readBack_signature (hn : Identifier.isValid name.toList = true)
    (hp : ∀ p ∈ ps, p.Reread) : ReadBack (signature name ps none) name ps := by
  obtain ⟨hparse, hsame⟩ := FunctionItem.parse_signature hn hp none (by simp)
  exact ⟨by simpa using hparse, hsame⟩

end

namespace Item
open Param

/-- The type of a parameter that was decoded is read again exactly if no more tuples lie inside one
another than may be open in a text, and there is at most one more. So it is with signatures. -/
theorem readBack_of_ofJson (x : Json) :
    (∀ p : Param, Param.ofJson x = .ok p ∨ eventInputOfJson x = .ok p →
      p.nesting ≤ maxNesting + 1 ∧
        ((∃ t, TypeSpec.parse p.canonicalType = .ok t) ↔ p.nesting ≤ maxNesting)) ∧
    (∀ f : FunctionItem, ofJson x = .ok (function f) →
      ReadBack f.signature f.name f.inputs ∧
        ((∃ g, FunctionItem.parse f.fullSignature = .ok g) ↔
          ∀ p ∈ f.inputs ++ f.outputs, p.nesting ≤ maxNesting)) ∧
    (∀ e : ErrorItem, ofJson x = .ok (error e) → ReadBack e.signature e.name e.inputs) ∧
    (∀ e : EventItem, ofJson x = .ok (event e) → ReadBack e.signature e.name e.inputs) := by
  refine ⟨?_, ?_, ?_, ?_⟩
  · rintro p (h | h)
    · have hp := wellFormed_of_decode h
      exact ⟨hp.nesting_le, hp.reread.parse_iff⟩
    · have hp := wellFormedInput_of_eventInputOfJson h
      refine ⟨?_, hp.reread.parse_iff⟩
      obtain ⟨q, indexed, hq, rfl⟩ := hp
      simpa using hq.nesting_le
  · intro f h
    cases wellFormed_of_ofJson h with
    | function name inputs outputs =>
      have hi : ∀ p ∈ f.inputs, p.Reread := fun p hp => (inputs p hp).reread
      have ho : ∀ p ∈ f.outputs, p.Reread := fun p hp => (outputs p hp).reread
      refine ⟨readBack_signature name hi, ?_⟩
      have hfull := (FunctionItem.parse_signature name hi (some f.outputs)
        fun qs hqs => Option.some.inj hqs ▸ ho).1
      simpa [FunctionItem.fullSignature, or_imp, forall_and] using hfull
  · intro e h
    cases wellFormed_of_ofJson h with
    | error name inputs => exact readBack_signature name fun p hp => (inputs p hp).reread
  · intro e h
    cases wellFormed_of_ofJson h with
    | event name inputs => exact readBack_signature name fun p hp => (inputs p hp).reread

/-- A function whose input is an array of tuples, the first member of which is an empty one. -/
def swap : Json :=
  .object [("name", .string "swap"), ("inputs", .array [.object [
    ("type", .string "tuple[02]"), ("components", .array [
      .object [("type", .string "tuple")], .object [("type", .string "bool")]])]])]

theorem readBack_of_ofJson_swap :
    ∃ f p, ofJson swap = .ok (function f) ∧ f.inputs = [p] ∧ p.nesting = 2 ∧
      f.signature = "swap(((),bool)[02])" ∧
      ∃ g, FunctionItem.parse f.signature = .ok g ∧ g.name = "swap" ∧ ReadFrom [p] g.inputs := by
  have h : ofJson swap = .ok (function ⟨"swap", [⟨"", "tuple[02]", [⟨"", "tuple", [], none, none⟩,
      ⟨"", "bool", [], none, none⟩], none, none⟩], [], .nonpayable⟩) :=
    toOption_eq_some.mp (by decide +kernel)
  obtain ⟨-, functions, -, -⟩ := readBack_of_ofJson swap
  obtain ⟨hread, -⟩ := functions _ h
  obtain ⟨g, hg⟩ := hread.parse_iff.mpr (by decide +kernel)
  obtain ⟨hname, hinputs⟩ := hread.same g hg
  exact ⟨_, _, h, rfl, by decide +kernel, by decide +kernel, g, hg, hname, hinputs⟩

/-- Tuples inside one another, the innermost of which is empty. -/
def nestedTuple : Nat → Json
  | 0 => .object [("type", .string "tuple")]
  | n + 1 => .object [("type", .string "tuple"), ("components", .array [nestedTuple n])]

def nestedParam : Nat → Param
  | 0 => ⟨"", "tuple", [], none, none⟩
  | n + 1 => ⟨"", "tuple", [nestedParam n], none, none⟩

theorem decode_nestedTuple (n : Nat) : decode (n + 1) (nestedTuple n) = .ok (nestedParam n) := by
  have htype (b : Bool) : readType (Utf16.ofString "tuple") b = .ok "tuple" :=
    readType_eq_ok.mpr ⟨rfl, .tuple .nil b⟩
  induction n with
  | zero => exact decode_succ_eq_ok.mpr ⟨_, [], rfl, rfl, rfl, htype _, rfl, rfl, rfl⟩
  | succ n ih =>
    exact decode_succ_eq_ok.mpr ⟨_, [nestedTuple n], rfl, rfl, rfl, htype _, rfl,
      mapM_eq_ok.mpr (.cons ih .nil), rfl⟩

theorem nesting_nestedParam (n : Nat) : (nestedParam n).nesting = n + 1 := by
  induction n with
  | zero => rfl
  | succ n ih => simp [nestedParam, nesting, nestingOf, tupleSuffix?, ih]

/-- With one more tuple than may be open, and nothing in the innermost, a parameter is decoded,
but neither its type nor the signature of a function with it is read again. -/
theorem not_read_back_nestedTuple :
    ∃ p f, Param.ofJson (nestedTuple maxNesting) = .ok p ∧
      (∃ e, TypeSpec.parse p.canonicalType = .error e) ∧
      ofJson (.object [("name", .string "f"), ("inputs", .array [nestedTuple maxNesting])]) =
        .ok (function f) ∧
      ∃ e, FunctionItem.parse f.signature = .error e := by
  have hp := decode_nestedTuple maxNesting
  have hread := (wellFormed_of_decode hp).reread
  have hdeep : ¬ (nestedParam maxNesting).nesting ≤ maxNesting := by
    rw [nesting_nestedParam]
    omega
  refine ⟨nestedParam maxNesting, ⟨"f", [nestedParam maxNesting], [], .nonpayable⟩, hp,
    exists_error_of_not_ok fun h => hdeep (hread.parse_iff.mp h), ?_,
    exists_error_of_not_ok fun h => ?_⟩
  · have hinputs : [nestedTuple maxNesting].mapM Param.ofJson = .ok [nestedParam maxNesting] :=
      mapM_eq_ok.mpr (.cons hp .nil)
    exact bind_eq_ok.mpr ⟨.function, rfl, bind_eq_ok.mpr ⟨some "f",
      nameField?_string rfl (by decide),
      bind_eq_ok.mpr ⟨"f", rfl, bind_eq_ok.mpr ⟨_, hinputs, rfl⟩⟩⟩⟩
  · have hback := readBack_signature (by decide : Identifier.isValid "f".toList = true)
      (List.forall_mem_singleton.mpr hread)
    exact hdeep (hback.parse_iff.mp h _ (List.mem_singleton_self _))

end Item

end ContractInterface

import ContractInterface.Proofs.Declaration
import ContractInterface.Proofs.Param.Canonical
import ContractInterface.Proofs.TopLevel

/-! Functions that are declared by canonically spelled types. Their signatures are the text of the
declaration again, whether or not the parameters are named. -/
namespace ContractInterface

namespace TypeSpec
open Text

theorem Dimensions.noBlank {ds : List Char} {sizes : List (Option Nat)}
    (h : Dimensions ds sizes) : NoBlank ds := by
  intro c hc
  rcases h.mem_cases c hc with rfl | rfl | hdigit
  · decide
  · decide
  · exact Identifier.isBlank_of_isPart (by simp [Identifier.isPart, Char.isAlphanum, hdigit])

theorem noBlank_named {name ds : List Char} {sizes : List (Option Nat)}
    (identifier : Identifier.isValid name = true) (dims : Dimensions ds sizes) :
    NoBlank (name ++ ds) := by
  have hname := Identifier.isPart_of_mem identifier
  exact .append (fun c hc => Identifier.isBlank_of_isPart (hname c hc)) dims.noBlank

theorem noBlank_tuple {pieces : List (List Char)} {ds : List Char} {sizes : List (Option Nat)}
    (members : ∀ p ∈ pieces, NoBlank p) (dims : Dimensions ds sizes) :
    NoBlank ('(' :: [','].intercalate pieces ++ ')' :: ds) := by
  have hcomma : NoBlank [','] := .cons (by decide) .nil
  have hbody := NoBlank.intercalate hcomma members
  exact .append (.cons (by decide) hbody) (.cons (by decide) dims.noBlank)

theorem Canonical.noBlank {n : Nat} {cs : List Char} (h : Canonical n cs) : NoBlank cs := by
  induction h with
  | named identifier _ dims _ => exact noBlank_named identifier dims
  | tuple _ dims _ ih => exact noBlank_tuple ih dims

end TypeSpec

namespace Declaration
open Text TypeSpec Param Sequencing

theorem words_append {word rest : List Char} (hw : NoBlank word) (hne : word ≠ [])
    (hr : ∀ c r, rest = c :: r → isBlank c = true) :
    words (word ++ rest) = (word, dropBlank rest) := by
  obtain ⟨c, cs, rfl⟩ := List.exists_cons_of_ne_nil hne
  have hall : ∀ d ∈ c :: cs, (!isBlank d) = true := fun d hd => by simp [hw d hd]
  have hrest : rest.takeWhile (!isBlank ·) = [] ∧ rest.dropWhile (!isBlank ·) = rest := by
    cases rest with
    | nil => simp
    | cons d r => simp [hr d r rfl]
  rw [words, List.cons_append, dropBlank_cons (hw c (by simp)), ← List.cons_append,
    List.takeWhile_append_of_pos hall, List.dropWhile_append_of_pos hall, hrest.1, hrest.2,
    List.append_nil]

theorem words_eq_self {word : List Char} (hw : NoBlank word) (hne : word ≠ []) :
    words word = (word, []) := by
  have h : words (word ++ []) = (word, dropBlank []) := words_append hw hne (by simp)
  rwa [List.append_nil] at h

theorem words_name {word name : List Char} (hw : NoBlank word) (hne : word ≠ [])
    (hn : Identifier.isValid name = true) : words (word ++ ' ' :: name) = (word, name) := by
  obtain ⟨c, cs, rfl, hc⟩ := Identifier.exists_cons hn
  have hc : isBlank c = false := Identifier.isBlank_of_isPart (Identifier.isPart_of_isStart hc)
  have hdrop : dropBlank (' ' :: c :: cs) = c :: cs := by
    rw [← List.singleton_append, dropBlank_append (by simp [AllBlank]; decide), dropBlank_cons hc]
  rw [words_append hw hne (fun d r hd => by cases hd; decide), hdrop]

/-- Texts of parameters in parentheses. -/
def listText (texts : List String) : String := "(" ++ ",".intercalate texts ++ ")"

theorem toList_listText_append (texts : List String) (rest : List Char) :
    (listText texts).toList ++ rest =
      '(' :: ([','].intercalate (texts.map String.toList) ++ ')' :: rest) := by
  simp [listText, String.toList_intercalate]

/-- A text that is read as a parameter is not blank. -/
theorem dropBlank_ne_nil_of_parseParam {text : String} {requireName : Bool} {p : Param}
    (h : parseParam text requireName = .ok p) : dropBlank text.toList ≠ [] := by
  obtain ⟨ty, name, t, hwords, ht, -⟩ := parseParam_eq_ok.mp h
  intro hb
  rw [words, hb] at hwords
  cases hwords
  cases ht

/-- Texts that can be told apart in a list. -/
structure Parted (texts : List String) : Prop where
  closed : ∀ text ∈ texts, TopLevel.Closed ',' false text.toList
  nonblank : ∀ text ∈ texts, dropBlank text.toList ≠ []

/-- A list is read if each of its texts is, and what follows it is left. -/
theorem Parted.readParams_eq_ok {requireNames : Bool} {texts : List String} (h : Parted texts)
    {whole : String} {rest rest' : List Char} {ps : List Param} :
    readParams whole requireNames ([','].intercalate (texts.map String.toList) ++ ')' :: rest) =
        .ok (ps, rest') ↔
      List.Forall₂ (fun text p => parseParam text requireNames = .ok p) texts ps ∧
        rest = rest' := by
  have hcut : TopLevel.cut ',' 1 ([','].intercalate (texts.map String.toList) ++ ')' :: rest) =
      .ok (texts.map String.toList, rest) := by
    apply TopLevel.cut_intercalate (by decide) (by decide)
    · simpa using h.closed
    · simpa using h.nonblank
  rw [Declaration.readParams_eq_ok, hcut]
  constructor
  · rintro ⟨pieces, hpieces, hparams⟩
    cases hpieces
    rw [List.forall₂_map_left_iff] at hparams
    exact ⟨by simpa using hparams, rfl⟩
  · rintro ⟨hparams, rfl⟩
    refine ⟨_, rfl, ?_⟩
    rw [List.forall₂_map_left_iff]
    simpa using hparams

/-- What follows the first list: a second one, or nothing. -/
def secondList : Option (List String) → String
  | none => ""
  | some texts => listText texts

section

variable {name : String} {inputs : List String} {outputs? : Option (List String)}

theorem toList_function : (name ++ listText inputs ++ secondList outputs?).toList =
    name.toList ++ '(' :: ([','].intercalate (inputs.map String.toList) ++
      ')' :: (secondList outputs?).toList) := by
  rw [String.toList_append, String.toList_append, List.append_assoc, toList_listText_append]

/-- There are no blanks around a name and its lists. -/
theorem trim_function (hn : Identifier.isValid name.toList = true) :
    trim (name ++ listText inputs ++ secondList outputs?).toList =
      (name ++ listText inputs ++ secondList outputs?).toList := by
  have hlist (texts : List String) : ∃ s, (listText texts).toList = s ++ [')'] :=
    ⟨(("(" ++ ",".intercalate texts).toList), by simp [listText]⟩
  obtain ⟨s, hs⟩ : ∃ s, (name ++ listText inputs ++ secondList outputs?).toList = s ++ [')'] := by
    cases outputs? with
    | none =>
      obtain ⟨s, hs⟩ := hlist inputs
      exact ⟨name.toList ++ s, by simp [secondList, hs]⟩
    | some outputs =>
      obtain ⟨s, hs⟩ := hlist outputs
      exact ⟨(name ++ listText inputs).toList ++ s, by simp [secondList, hs]⟩
  obtain ⟨c, cs, hname, hc⟩ := Identifier.exists_cons hn
  have hblank := Identifier.isBlank_of_isPart (Identifier.isPart_of_isStart hc)
  rw [toList_function, hname, List.cons_append] at hs ⊢
  exact trim_eq_self hblank (by decide) hs

/-- A name with one or two lists is read if each text in them is read as a parameter. -/
theorem parseFunction_eq_ok (hn : Identifier.isValid name.toList = true) (hi : Parted inputs)
    (ho : ∀ outputs, outputs? = some outputs → Parted outputs) {d : Declaration} :
    parseFunction (name ++ listText inputs ++ secondList outputs?) = .ok d ↔
      d.name = name ∧
        List.Forall₂ (fun text p => parseParam text false = .ok p) inputs d.inputs ∧
        Option.Rel (List.Forall₂ fun text p => parseParam text false = .ok p)
          outputs? d.outputs := by
  rw [parseFunction, parse_eq_ok, trim_function hn, toList_function]
  constructor
  · rintro ⟨body, rest, htext, hvalid, hinputs, houtputs⟩
    obtain ⟨hname, rfl⟩ := Identifier.append_parenthesis_inj hn hvalid htext
    obtain ⟨hparams, rfl⟩ := hi.readParams_eq_ok.mp hinputs
    refine ⟨(String.toList_injective hname).symm, hparams, ?_⟩
    generalize d.outputs = ps at houtputs
    cases outputs? with
    | none =>
      cases houtputs
      exact .none
    | some outputs =>
      have hlist := toList_listText_append outputs []
      rw [List.append_nil] at hlist
      rw [secondList, hlist] at houtputs
      cases houtputs with
      | listed _ params => exact .some ((ho outputs rfl).readParams_eq_ok.mp params).1
  · rintro ⟨rfl, hinputs, houtputs⟩
    refine ⟨_, _, rfl, hn, hi.readParams_eq_ok.mpr ⟨hinputs, rfl⟩, ?_⟩
    generalize d.outputs = ps at houtputs
    cases houtputs with
    | none => exact .absent
    | @some outputs ps hparams =>
      have hlist := toList_listText_append outputs []
      rw [List.append_nil] at hlist
      rw [secondList, hlist]
      exact .listed rfl ((ho outputs rfl).readParams_eq_ok.mpr ⟨hparams, rfl⟩)

end

/-- The texts are read one by one as the parameters, and can be told apart in a list. -/
structure Listed (requireNames : Bool) (texts : List String) (ps : List Param) : Prop where
  closed : ∀ text ∈ texts, TopLevel.Closed ',' false text.toList
  parsed : List.Forall₂ (fun text p => parseParam text requireNames = .ok p) texts ps

theorem Listed.parted {requireNames : Bool} {texts : List String} {ps : List Param}
    (h : Listed requireNames texts ps) : Parted texts where
  closed := h.closed
  nonblank := by
    intro text htext
    obtain ⟨i, hi, rfl⟩ := List.mem_iff_getElem.mp htext
    exact dropBlank_ne_nil_of_parseParam (h.parsed.get hi (h.parsed.length_eq ▸ hi))

/-- A name with two lists is read as a function with its inputs and outputs. -/
theorem parseFunction_listText {name : String} {inputs outputs : List String}
    {ps qs : List Param} (hn : Identifier.isValid name.toList = true)
    (hi : Listed false inputs ps) (ho : Listed false outputs qs) :
    parseFunction (name ++ listText inputs ++ listText outputs) = .ok ⟨name, ps, some qs⟩ :=
  (parseFunction_eq_ok hn hi.parted fun _ h => Option.some.inj h ▸ ho.parted).mpr
    ⟨rfl, hi.parsed, .some ho.parsed⟩

/-- A parameter as it is declared: its type, and its name if it has one. -/
structure Entry where
  ty : String
  name? : Option String

namespace Entry

def text : Entry → String
  | ⟨ty, none⟩ => ty
  | ⟨ty, some name⟩ => ty ++ " " ++ name

/-- The parameter under the name that is declared, if one is. -/
def label : Entry → Param → Param
  | ⟨_, none⟩, p => p
  | ⟨_, some name⟩, p => { p with name }

structure Canonical (e : Entry) : Prop where
  ty : TypeSpec.Canonical maxNesting e.ty.toList
  name : ∀ name, e.name? = some name → Identifier.isValid name.toList = true

/-- What an entry is read as, with and without its name. -/
structure ReadAs (e : Entry) (p : Param) : Prop where
  shown : p.canonicalType = e.ty
  unnamed : parseParam e.ty false = .ok p
  named : parseParam e.text false = .ok (e.label p)

theorem Canonical.exists_readAs {e : Entry} (h : e.Canonical) : ∃ p, e.ReadAs p := by
  obtain ⟨t, hw, hshown⟩ := h.ty.exists_written
  have hparse := hw.parse_ofList (Nat.le_refl _)
  have hne : e.ty.toList ≠ [] := by
    obtain ⟨c, r, hc, -⟩ := hw.exists_cons
    simp [hc]
  have hunnamed : parseParam e.ty false = .ok _ := parseParam_eq_ok.mpr
    ⟨_, _, t, words_eq_self h.ty.noBlank hne, hparse, .inl ⟨rfl, rfl⟩, rfl⟩
  refine ⟨_, by rw [hshown, String.ofList_toList], hunnamed, ?_⟩
  obtain ⟨ty, name?⟩ := e
  cases name? with
  | none => exact hunnamed
  | some name =>
    have hvalid := h.name name rfl
    have htext : (text ⟨ty, some name⟩).toList = ty.toList ++ ' ' :: name.toList := by simp [text]
    have hwords := words_name h.ty.noBlank hne hvalid
    rw [← htext] at hwords
    refine parseParam_eq_ok.mpr ⟨_, _, t, hwords, hparse, .inr hvalid, ?_⟩
    rw [String.ofList_toList]
    cases t <;> rfl

theorem Canonical.closed {e : Entry} (h : e.Canonical) :
    TopLevel.Closed ',' false e.ty.toList ∧ TopLevel.Closed ',' false e.text.toList := by
  obtain ⟨t, hw, -⟩ := h.ty.exists_written
  refine ⟨hw.closed, ?_⟩
  obtain ⟨ty, name?⟩ := e
  cases name? with
  | none => exact hw.closed
  | some name =>
    have hname : TopLevel.Closed ',' false name.toList :=
      isPart_closed (Identifier.isPart_of_mem (h.name name rfl))
    simpa [text] using hw.closed.append (.cons (by decide) (by decide) (.inr (by decide)) hname)

variable {es : List Entry} {ps : List Param}

theorem exists_readAs (h : ∀ e ∈ es, e.Canonical) : ∃ ps, List.Forall₂ ReadAs es ps :=
  exists_forall₂ fun e he => (h e he).exists_readAs

theorem listed_ty (h : ∀ e ∈ es, e.Canonical) (hps : List.Forall₂ ReadAs es ps) :
    Listed false (es.map Entry.ty) ps where
  closed := by
    intro text htext
    obtain ⟨e, he, rfl⟩ := List.mem_map.mp htext
    exact (h e he).closed.1
  parsed := List.forall₂_map_left_iff.mpr (hps.imp fun _ _ he => he.unnamed)

theorem listed_text (h : ∀ e ∈ es, e.Canonical) (hps : List.Forall₂ ReadAs es ps) :
    Listed false (es.map text) (List.zipWith label es ps) where
  closed := by
    intro text htext
    obtain ⟨e, he, rfl⟩ := List.mem_map.mp htext
    exact (h e he).closed.2
  parsed := by
    rw [List.forall₂_map_left_iff]
    clear h
    induction hps with
    | nil => exact .nil
    | cons he _ ih => exact .cons he.named ih

/-- Names are not shown. -/
theorem canonicalType_label (e : Entry) (p : Param) :
    (e.label p).canonicalType = p.canonicalType := by
  obtain ⟨ty, name?⟩ := e
  cases name? <;> cases p <;> rfl

theorem listText_ty (hps : List.Forall₂ ReadAs es ps) :
    Param.listText ps = listText (es.map Entry.ty) := by
  have hshown : ps.map canonicalType = es.map Entry.ty :=
    map_eq_map_of_forall₂ (hps.imp fun _ _ he => he.shown)
  rw [Param.listText, canonicalTypes_eq_map, hshown, listText]

theorem listText_label (hps : List.Forall₂ ReadAs es ps) :
    Param.listText (List.zipWith label es ps) = Param.listText ps := by
  have hshown : (List.zipWith label es ps).map canonicalType = ps.map canonicalType := by
    induction hps with
    | nil => rfl
    | cons _ _ ih => simp [canonicalType_label, ih]
  rw [Param.listText, Param.listText, canonicalTypes_eq_map, canonicalTypes_eq_map, hshown]

end Entry

end Declaration

open Declaration

/-- What is spelled canonically is shown as it is spelled: a type by itself, and the name and types
of a function in its signatures. Names behind the types are the names of the parameters, and
nothing else. -/
theorem FunctionItem.shown_as_spelled :
    (∀ ty name : String, TypeSpec.Canonical maxNesting ty.toList →
      (Param.parse ty name).map Param.canonicalType = .ok ty) ∧
    ∀ (name : String) (inputs outputs : List Entry), Identifier.isValid name.toList = true →
      (∀ e ∈ inputs, e.Canonical) → (∀ e ∈ outputs, e.Canonical) →
      ∃ f g : FunctionItem,
        FunctionItem.parse (name ++ listText (inputs.map Entry.ty) ++
          listText (outputs.map Entry.ty)) = .ok f ∧
        f.fullSignature = name ++ listText (inputs.map Entry.ty) ++
          listText (outputs.map Entry.ty) ∧
        f.signature = name ++ listText (inputs.map Entry.ty) ∧
        f.inputs.length = inputs.length ∧ f.outputs.length = outputs.length ∧
        FunctionItem.parse (name ++ listText (inputs.map Entry.text) ++
          listText (outputs.map Entry.text)) = .ok g ∧
        g.fullSignature = f.fullSignature ∧ g.signature = f.signature ∧
        g = { f with
          inputs := List.zipWith Entry.label inputs f.inputs
          outputs := List.zipWith Entry.label outputs f.outputs } := by
  constructor
  · intro ty name h
    obtain ⟨t, hw, hshown⟩ := h.exists_written
    have hparse := hw.parse_ofList (Nat.le_refl _)
    rw [String.ofList_toList] at hparse
    rw [Param.parse, hparse]
    simp [Except.map, hshown]
  · intro name inputs outputs hn hi ho
    obtain ⟨ps, hps⟩ := Entry.exists_readAs hi
    obtain ⟨qs, hqs⟩ := Entry.exists_readAs ho
    have hf := parseFunction_listText hn (Entry.listed_ty hi hps) (Entry.listed_ty ho hqs)
    have hg := parseFunction_listText hn (Entry.listed_text hi hps) (Entry.listed_text ho hqs)
    refine ⟨⟨name, ps, qs, .nonpayable⟩, ⟨name, _, _, .nonpayable⟩, ?_, ?_, ?_,
      hps.length_eq.symm, hqs.length_eq.symm, ?_, ?_, ?_, rfl⟩
    · rw [FunctionItem.parse, hf]
      rfl
    · rw [fullSignature, ContractInterface.signature, Entry.listText_ty hps]
      dsimp only
      rw [Entry.listText_ty hqs]
    · rw [FunctionItem.signature, ContractInterface.signature, Entry.listText_ty hps]
      simp
    · rw [FunctionItem.parse, hg]
      rfl
    · simp only [fullSignature, ContractInterface.signature, Entry.listText_label hps,
        Entry.listText_label hqs]
    · simp only [FunctionItem.signature, ContractInterface.signature, Entry.listText_label hps]

theorem FunctionItem.shown_as_spelled_swap :
    (Param.parse "(A,bool[])[2]" "order").map Param.canonicalType = .ok "(A,bool[])[2]" ∧
    ∃ f g : FunctionItem,
      FunctionItem.parse "swap((A,bool[])[2],())(bool[])" = .ok f ∧
      f.fullSignature = "swap((A,bool[])[2],())(bool[])" ∧
      f.signature = "swap((A,bool[])[2],())" ∧
      FunctionItem.parse "swap((A,bool[])[2] order,())(bool[] done)" = .ok g ∧
      g.fullSignature = f.fullSignature ∧ g.signature = f.signature := by
  have hname : TypeSpec.Canonical 63 ['A'] :=
    .named (by decide : Identifier.isValid ['A'] = true) (by decide) .nil (by decide)
  have hbools (n : Nat) : TypeSpec.Canonical n "bool[]".toList :=
    .named (by decide : Identifier.isValid "bool".toList = true) (by decide)
      (.cons .unbounded .nil) (by decide)
  have hempty : TypeSpec.Canonical maxNesting "()".toList :=
    @TypeSpec.Canonical.tuple 63 [] [] [] (by simp) .nil (by decide)
  have htwo : TypeSpec.Dimensions ['[', '2', ']'] [some 2] :=
    @TypeSpec.Dimensions.single ['2'] (by simp) (by simp) (by decide) (by decide)
  have hpairs : TypeSpec.Canonical maxNesting "(A,bool[])[2]".toList := by
    have h := @TypeSpec.Canonical.tuple 63 [['A'], "bool[]".toList] _ _
      (by simpa using ⟨hname, hbools 63⟩) htwo (by decide)
    simpa [maxNesting] using h
  have hinputs : ∀ e ∈ [Entry.mk "(A,bool[])[2]" (some "order"), ⟨"()", none⟩], e.Canonical := by
    simp only [List.forall_mem_cons, List.not_mem_nil, false_implies, implies_true, and_true]
    exact ⟨⟨hpairs, by simp; decide⟩, ⟨hempty, by simp⟩⟩
  have houtputs : ∀ e ∈ [Entry.mk "bool[]" (some "done")], e.Canonical := by
    simp only [List.forall_mem_cons, List.not_mem_nil, false_implies, implies_true, and_true]
    exact ⟨hbools maxNesting, by simp; decide⟩
  have hshort : "swap" ++ listText ["(A,bool[])[2]", "()"] = "swap((A,bool[])[2],())" := by
    decide +kernel
  have hfull : "swap((A,bool[])[2],())" ++ listText ["bool[]"] =
      "swap((A,bool[])[2],())(bool[])" := by decide +kernel
  have hnamed : "swap" ++ listText ["(A,bool[])[2]" ++ " " ++ "order", "()"] ++
      listText ["bool[]" ++ " " ++ "done"] =
        "swap((A,bool[])[2] order,())(bool[] done)" := by decide +kernel
  obtain ⟨types, functions⟩ := shown_as_spelled
  obtain ⟨f, g, h⟩ := functions "swap" _ _ (by decide) hinputs houtputs
  simp only [List.map_cons, List.map_nil, Entry.text, hshort, hfull, hnamed] at h
  obtain ⟨hf, hffull, hfshort, -, -, hg, hgfull, hgshort, -⟩ := h
  exact ⟨types _ _ hpairs, f, g, hf, hffull, hfshort, hg, hgfull, hgshort⟩

end ContractInterface

import ContractInterface.Proofs.TypeSpec.Plain
import ContractInterface.Proofs.TypedData.Supply

/-! Definitions without the texts that they were read from. What is left of a definition settles
whether it is taken for a struct and to which names it refers, but not how its types are written. -/
namespace ContractInterface.TypedData
open Sequencing TypeSpec

def Member.toField (m : Member) : StructField := ⟨m.ty.span, m.name⟩

namespace Definition

variable {elementary : String → Bool} {d d' : Definition}

/-- A definition without the texts that it was read from. -/
def outline (d : Definition) : String × List (String × Tree) :=
  (d.name, d.members.map fun m => (m.name, m.ty.tree))

/-- The texts of the types. -/
def spelling (d : Definition) : List String := d.members.map (·.ty.span)

/-- The struct of the definition if its names are as they should be. -/
def toStruct (d : Definition) : Struct := ⟨d.name, d.members.map (·.toField)⟩

def Named (d : Definition) : Prop :=
  Identifier.isValid d.name.toList = true ∧ ∀ m ∈ d.members, Identifier.isValid m.name.toList = true

theorem ofDefinition_eq_ok {s : Struct} :
    Struct.ofDefinition d = .ok s ↔ d.Named ∧ s = d.toStruct := by
  have hmember {m : Member} {f : StructField} : StructField.ofMember m = .ok f ↔
      Identifier.isValid m.name.toList = true ∧ f = m.toField := by
    rw [StructField.ofMember, bind_eq_ok]
    constructor
    · rintro ⟨name, hname, hf⟩
      obtain ⟨rfl, hvalid⟩ := checkIdentifier_false_eq_ok.mp hname
      exact ⟨hvalid, (Except.ok.inj hf).symm⟩
    · rintro ⟨hvalid, rfl⟩
      exact ⟨m.name, checkIdentifier_false_eq_ok.mpr ⟨rfl, hvalid⟩, rfl⟩
  rw [Struct.ofDefinition, bind_eq_ok]
  constructor
  · rintro ⟨name, hname, h⟩
    obtain ⟨rfl, hvalid⟩ := checkIdentifier_false_eq_ok.mp hname
    obtain ⟨fields, hfields, h⟩ := bind_eq_ok.mp h
    cases h
    obtain ⟨hnames, rfl⟩ := (mapM_eq_ok_iff fun _ _ => hmember).mp hfields
    exact ⟨⟨hvalid, hnames⟩, rfl⟩
  · rintro ⟨⟨hvalid, hnames⟩, rfl⟩
    refine ⟨d.name, checkIdentifier_false_eq_ok.mpr ⟨rfl, hvalid⟩, ?_⟩
    exact bind_eq_ok.mpr ⟨_, (mapM_eq_ok_iff fun _ _ => hmember).mpr ⟨hnames, rfl⟩, rfl⟩

/-- Whether the names are as they should be shows in the outline. -/
theorem Named.congr (h : d.Named) (hout : d'.outline = d.outline) : d'.Named := by
  have named (d : Definition) : d.Named ↔ Identifier.isValid d.outline.1.toList = true ∧
      ∀ p ∈ d.outline.2, Identifier.isValid p.1.toList = true := by
    simp [Named, outline]
  rw [named, hout, ← named]
  exact h

/-- Definitions of one outline become the same struct exactly if they are spelled the same. -/
theorem toStruct_eq_iff (hout : d.outline = d'.outline) :
    d.toStruct = d'.toStruct ↔ d.spelling = d'.spelling := by
  obtain ⟨hname, hmembers⟩ := Prod.mk.inj hout
  rw [toStruct, toStruct, Struct.mk.injEq, and_iff_right hname, spelling, spelling]
  generalize d.members = ms at hmembers
  generalize d'.members = ms' at hmembers
  induction ms generalizing ms' with
  | nil =>
    cases ms' with
    | nil => exact iff_of_true rfl rfl
    | cons m' ms' => cases hmembers
  | cons m ms ih =>
    cases ms' with
    | nil => cases hmembers
    | cons m' ms' =>
      simp only [List.map_cons, List.cons.injEq, Prod.mk.injEq] at hmembers ⊢
      rw [ih ms' hmembers.2, Member.toField, Member.toField, StructField.mk.injEq,
        and_iff_left hmembers.1.1]

/-- The texts of types that have been read settle their trees. -/
theorem outline_eq_of_toStruct_eq (hd : d.TypesRead) (hd' : d'.TypesRead)
    (h : d.toStruct = d'.toStruct) : d.outline = d'.outline := by
  obtain ⟨hname, hfields⟩ := Struct.mk.inj h
  -- with the texts the trees can be had from the fields alone
  have trees {d : Definition} (hd : d.TypesRead) :
      (d.members.map (·.toField)).map (fun f => (f.name, (TypeSpec.parse f.ty).map tree)) =
        (d.members.map fun m => (m.name, m.ty.tree)).map fun p => (p.1, .ok p.2) := by
    rw [List.map_map, List.map_map]
    apply List.map_congr_left
    intro m hm
    obtain ⟨text, ht⟩ := hd m hm
    simp only [Function.comp_apply, Member.toField, TypeSpec.parse_span ht, Except.map]
  have hpairs := (trees hd).symm.trans ((congrArg _ hfields).trans (trees hd'))
  refine Prod.ext hname (List.map_injective_iff.mpr ?_ hpairs)
  rintro ⟨n, t⟩ ⟨n', t'⟩ heq
  cases heq
  rfl

/-- The names that the struct refers to show in the outline. -/
theorem referencesBy_toStruct (hd : d.TypesRead) : d.toStruct.referencesBy elementary =
    .ok (d.outline.2.foldl (fun known p => Struct.addReferences elementary known p.2.rootNames)
      []) := by
  rw [Struct.referencesBy, toStruct, outline]
  dsimp only
  unfold TypesRead at hd
  generalize ([] : List String) = known
  generalize d.members = ms at hd
  induction ms generalizing known with
  | nil => rfl
  | cons m ms ih =>
    obtain ⟨text, ht⟩ := hd m (by simp)
    have hroots : m.toField.rootNames = .ok m.ty.tree.rootNames := by
      rw [StructField.rootNames, Member.toField, TypeSpec.parse_span ht, rootNames_tree]
      rfl
    rw [List.map_cons, List.foldlM_cons, hroots, List.map_cons, List.foldl_cons]
    exact ih _ fun n hn => hd n (by simp [hn])

/-- Where the types are spelled plainly, the struct is settled by the outline. -/
theorem toStruct_of_plain (hd : d.TypesRead) (hp : ∀ text ∈ d.spelling, Plain text.toList) :
    d.toStruct = ⟨d.outline.1, d.outline.2.map fun p => ⟨.ofList p.2.text, p.1⟩⟩ := by
  rw [toStruct, outline, List.map_map]
  congr 1
  apply List.map_congr_left
  intro m hm
  obtain ⟨text, ht⟩ := hd m hm
  rw [Member.toField, span_eq_text ht (hp m.ty.span (List.mem_map.mpr ⟨m, hm, rfl⟩))]
  rfl

/-- Lists of the same outlines have definitions of the same outlines in them. -/
theorem exists_outline_eq {ds ds' : List Definition}
    (hout : ds'.map (·.outline) = ds.map (·.outline)) (hd : d ∈ ds) :
    ∃ d' ∈ ds', d'.outline = d.outline := by
  have hmem : d.outline ∈ ds'.map (·.outline) := hout ▸ List.mem_map.mpr ⟨d, hd, rfl⟩
  exact List.mem_map.mp hmem

theorem named_of_outlines {ds ds' : List Definition}
    (hout : ds'.map (·.outline) = ds.map (·.outline)) (h : ∀ d ∈ ds, d.Named) :
    ∀ d ∈ ds', d.Named := by
  intro d' hd'
  obtain ⟨d, hd, hsame⟩ := exists_outline_eq hout.symm hd'
  exact (h d hd).congr hsame.symm

end Definition

end ContractInterface.TypedData

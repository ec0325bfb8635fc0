import ContractInterface.Param.Basic
import ContractInterface.Proofs.InternalType
import ContractInterface.Proofs.TypeSpec.Grammar

/-! Parameters that are annotated with the texts of their types, at every depth. The rest of such
a parameter is what its type gives without annotations. -/
namespace ContractInterface

namespace TypeSpec
open Text

theorem Dimensions.point_not_mem {ds : List Char} {sizes : List (Option Nat)}
    (h : Dimensions ds sizes) : '.' ∉ ds :=
  fun hc => absurd (h.mem_cases _ hc) (by decide)

mutual

/-- No points stand in a type. -/
theorem Written.point_not_mem {n : Nat} {cs : List Char} {t : TypeSpec} (h : Written n cs t) :
    '.' ∉ cs := by
  cases h with
  | named identifier dims =>
    rw [List.mem_append, not_or]
    exact ⟨fun hc => absurd (Identifier.isPart_of_mem identifier _ hc) (by decide),
      dims.point_not_mem⟩
  | @tuple _ word _ _ _ _ keyword inside dims =>
    have hword : '.' ∉ word := by cases keyword <;> decide
    simp [hword, inside.point_not_mem, dims.point_not_mem]

theorem Body.point_not_mem {n : Nat} {body : List Char} {ts : List TypeSpec}
    (h : Body n body ts) : '.' ∉ body := by
  have hblank {blank : List Char} (hb : AllBlank blank) : '.' ∉ blank :=
    fun hc => absurd (hb _ hc) (by decide)
  cases h with
  | empty blanks => exact hblank blanks
  | last leading member trailing => simp [hblank leading, member.point_not_mem, hblank trailing]
  | cons leading member trailing others =>
    simp [hblank leading, member.point_not_mem, hblank trailing, others.point_not_mem]

end

end TypeSpec

namespace Param
open Text TypeSpec

mutual

/-- A parameter without annotations, and its components without theirs. -/
def bare : Param → Param
  | ⟨name, ty, components, _, indexed⟩ => ⟨name, ty, bares components, none, indexed⟩

def bares : List Param → List Param
  | [] => []
  | p :: ps => bare p :: bares ps

end

/-- The text of a type as an annotation. -/
def ownText (t : TypeSpec) : Option InternalType := some ⟨.other, t.span, none⟩

mutual

/-- The parameter has the text of its type for annotation, and so have its components, which are
not named. -/
inductive Annotated : TypeSpec → Param → Prop
  | named {span root : String} {sizes : List (Option Nat)} {p : Param}
      (own : p.internalType = ownText (.named span root sizes))
      (no_components : p.components = []) :
      Annotated (.named span root sizes) p
  | tuple {span body : String} {members : List TypeSpec} {sizes : List (Option Nat)} {p : Param}
      (own : p.internalType = ownText (.tuple span body members sizes))
      (components : AllAnnotated members p.components) :
      Annotated (.tuple span body members sizes) p

inductive AllAnnotated : List TypeSpec → List Param → Prop
  | nil : AllAnnotated [] []
  | cons {t : TypeSpec} {ts : List TypeSpec} {p : Param} {ps : List Param} (unnamed : p.name = "")
      (first : Annotated t p) (others : AllAnnotated ts ps) : AllAnnotated (t :: ts) (p :: ps)

end

theorem name_ofTypeSpec (annotate : TypeSpec → Option InternalType) (name : String)
    (t : TypeSpec) : (ofTypeSpec annotate name t).name = name := by
  cases t <;> rfl

mutual

theorem bare_ofTypeSpec (annotate : TypeSpec → Option InternalType) (name : String)
    (t : TypeSpec) : (ofTypeSpec annotate name t).bare = ofTypeSpec (fun _ => none) name t := by
  cases t with
  | named span root sizes => rfl
  | tuple span body members sizes => rw [ofTypeSpec, bare, bares_ofMembers]; rfl

theorem bares_ofMembers (annotate : TypeSpec → Option InternalType) (ts : List TypeSpec) :
    bares (ofMembers annotate ts) = ofMembers (fun _ => none) ts := by
  cases ts with
  | nil => rfl
  | cons t ts => rw [ofMembers, bares, bare_ofTypeSpec, bares_ofMembers]; rfl

end

mutual

theorem annotated_ofTypeSpec (name : String) (t : TypeSpec) :
    Annotated t (ofTypeSpec ownText name t) := by
  cases t with
  | named span root sizes => exact .named rfl rfl
  | tuple span body members sizes => exact .tuple rfl (allAnnotated_ofMembers members)

theorem allAnnotated_ofMembers (ts : List TypeSpec) :
    AllAnnotated ts (ofMembers ownText ts) := by
  cases ts with
  | nil => exact .nil
  | cons t ts =>
    exact .cons (name_ofTypeSpec ..) (annotated_ofTypeSpec "" t) (allAnnotated_ofMembers ts)

end

mutual

/-- The type and the annotations make out the parameter. -/
theorem Annotated.eq_ofTypeSpec {t : TypeSpec} {p : Param} (h : Annotated t p) {name : String}
    (hbare : p.bare = ofTypeSpec (fun _ => none) name t) : p = ofTypeSpec ownText name t := by
  obtain ⟨pname, ty, components, internalType, indexed⟩ := p
  cases h with
  | named own no_components =>
    simp only [bare, ofTypeSpec, Param.mk.injEq] at hbare
    obtain ⟨rfl, rfl, -, -, rfl⟩ := hbare
    cases own
    cases no_components
    rfl
  | tuple own hcomponents =>
    simp only [bare, ofTypeSpec, Param.mk.injEq] at hbare
    obtain ⟨rfl, rfl, hbares, -, rfl⟩ := hbare
    cases own
    obtain rfl : components = _ := hcomponents.eq_ofMembers hbares
    rfl

theorem AllAnnotated.eq_ofMembers {ts : List TypeSpec} {ps : List Param}
    (h : AllAnnotated ts ps) (hbares : bares ps = ofMembers (fun _ => none) ts) :
    ps = ofMembers ownText ts := by
  cases h with
  | nil => rfl
  | cons unnamed first others =>
    obtain ⟨hfirst, hothers⟩ := List.cons.inj hbares
    exact congrArg₂ List.cons (first.eq_ofTypeSpec hfirst) (others.eq_ofMembers hothers)

end

theorem eq_ofTypeSpec_ownText_iff {t : TypeSpec} {p : Param} {name : String} :
    p = ofTypeSpec ownText name t ↔ p.bare = ofTypeSpec (fun _ => none) name t ∧ Annotated t p := by
  constructor
  · rintro rfl
    exact ⟨bare_ofTypeSpec .., annotated_ofTypeSpec name t⟩
  · rintro ⟨hbare, h⟩
    exact h.eq_ofTypeSpec hbare

end Param

namespace TypeSpec
open Text Param

theorem Written.parse_span {n : Nat} {cs : List Char} {t : TypeSpec} (h : Written n cs t)
    (hb : NoBlank cs) : some (InternalType.parse t.span) = ownText t := by
  have hspan : t.span.toList = cs := by rw [h.span_eq, String.toList_ofList]
  rw [InternalType.parse_eq_other (by rwa [hspan]) (by rw [hspan]; exact h.point_not_mem)]
  rfl

mutual

/-- Without blanks, a type and its members say nothing as annotations but their texts. -/
theorem Written.ofTypeSpec_eq {n : Nat} {cs : List Char} {t : TypeSpec} (h : Written n cs t)
    (hb : NoBlank cs) (name : String) :
    ofTypeSpec (fun t => some (InternalType.parse t.span)) name t = ofTypeSpec ownText name t := by
  have hown := h.parse_span hb
  cases h with
  | named _ _ => rw [ofTypeSpec, hown]; rfl
  | tuple _ inside _ =>
    rw [ofTypeSpec, hown, inside.ofMembers_eq fun c hc => hb c (by simp [hc])]
    rfl

theorem Body.ofMembers_eq {n : Nat} {body : List Char} {ts : List TypeSpec} (h : Body n body ts)
    (hb : NoBlank body) :
    ofMembers (fun t => some (InternalType.parse t.span)) ts = ofMembers ownText ts := by
  cases h with
  | empty _ => rfl
  | last _ member _ =>
    have ht := member.ofTypeSpec_eq (fun c hc => hb c (by simp [hc])) ""
    exact congrArg₂ List.cons ht rfl
  | cons _ member _ others =>
    have ht := member.ofTypeSpec_eq (fun c hc => hb c (by simp [hc])) ""
    have hts := others.ofMembers_eq fun c hc => hb c (by simp [hc])
    exact congrArg₂ List.cons ht hts

end

end TypeSpec

end ContractInterface

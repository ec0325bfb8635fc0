import ContractInterface.Proofs.Param.WellFormed
import ContractInterface.Proofs.Text.Numeral

/-! The parameters of types are well-formed. Sizes lose their leading zeros on the way, and are
sizes again. -/
namespace ContractInterface

namespace TypeSpec
open Text

/-- A size is written without leading zeros, and may stand in brackets again. -/
theorem Size.exists_dimensionText {digits : List Char} {size : Option Nat} (h : Size digits size) :
    ∃ written, (dimensionText size).toList = '[' :: written ++ [']'] ∧ Size written size := by
  cases h with
  | unbounded => exact ⟨[], rfl, .unbounded⟩
  | bounded nonempty digit limit positive =>
    refine ⟨Nat.toDigits 10 (asciiNumber digits), ?_, ?_⟩
    · simp [dimensionText, Nat.toList_repr]
    · have hsize : Size (Nat.toDigits 10 (asciiNumber digits)) _ := .bounded
        Nat.toDigits_ne_nil (fun c hc => Nat.isDigit_of_mem_toDigits (by decide) (by decide) hc)
        (Nat.le_trans (length_toDigits_asciiNumber_le digit nonempty) limit)
        (by simpa using positive)
      rwa [asciiNumber_toDigits] at hsize

theorem Dimensions.toList_join {ds : List Char} {sizes : List (Option Nat)}
    (h : Dimensions ds sizes) :
    Dimensions (String.join (sizes.map dimensionText)).toList sizes := by
  induction h with
  | nil => exact .nil
  | @cons digits ds size sizes first _ ih =>
    obtain ⟨written, hw, hs⟩ := first.exists_dimensionText
    have := Dimensions.cons hs ih
    simpa [hw] using this

end TypeSpec

namespace Param
open Sequencing TypeSpec

variable {annotate : TypeSpec → Option InternalType}

theorem typeText_named {name ds : List Char} {sizes : List (Option Nat)}
    (hn : Identifier.isValid name = true) (hd : Dimensions ds sizes) :
    TypeText (.ofList (name ++ ds)) false := by
  by_cases htuple : name = tupleWord.toList
  · rw [htuple]
    exact .tuple hd false
  · exact .named hn htuple hd

mutual

/-- The parameter of a type has one level more than tuples are open in the type. -/
theorem wellFormed_ofTypeSpec
    (ha : ∀ t i, annotate t = some i → ∃ s, InternalType.parse s = i)
    {n : Nat} {cs : List Char} {t : TypeSpec} (h : Written n cs t) {name : String}
    (hn : name = "" ∨ Identifier.isValid name.toList = true) :
    WellFormed (n + 1) (ofTypeSpec annotate name t) := by
  cases h with
  | named identifier dims =>
    exact .mk hn (typeText_named identifier dims) (ha _) (by simp)
  | tuple keyword inside dims =>
    have hty {b : Bool} := TypeText.tuple dims.toList_join b
    rw [String.ofList_append, String.ofList_toList, String.ofList_toList] at hty
    exact .mk hn hty (ha _) (wellFormed_ofMembers ha inside)

theorem wellFormed_ofMembers
    (ha : ∀ t i, annotate t = some i → ∃ s, InternalType.parse s = i)
    {n : Nat} {body : List Char} {ts : List TypeSpec} (h : Body n body ts) :
    ∀ c ∈ ofMembers annotate ts, WellFormed (n + 1) c := by
  cases h with
  | empty blanks => simp [ofMembers]
  | last leading member trailing =>
    intro c hc
    obtain rfl := List.mem_singleton.mp hc
    exact wellFormed_ofTypeSpec ha member (.inl rfl)
  | cons leading member trailing others =>
    intro c hc
    rcases List.mem_cons.mp hc with rfl | hc
    · exact wellFormed_ofTypeSpec ha member (.inl rfl)
    · exact wellFormed_ofMembers ha others c hc

end

end Param

end ContractInterface

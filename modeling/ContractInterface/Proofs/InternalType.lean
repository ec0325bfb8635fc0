import ContractInterface.InternalType
import ContractInterface.Proofs.Text.Blank

/-! Annotations lose nothing: each is written again as the text it was read from. One without
blanks and points is that text as it stands. -/
namespace ContractInterface

/-- A unit below the surrogates is a character by itself. -/
theorem Utf16.exists_mem_of_mem_ofChars {u : UInt16} (hu : u.toNat < 0xD800) {cs : List Char}
    (h : u ∈ ofChars cs) : ∃ c ∈ cs, c.toNat = u.toNat := by
  obtain ⟨c, hc, h⟩ := List.mem_flatMap.mp h
  refine ⟨c, hc, ?_⟩
  have hvalid := toNat_char_cases c
  unfold ofChar at h
  split at h
  · next hsmall =>
    rw [List.mem_singleton] at h
    rw [h, UInt16.toNat_ofNat', Nat.mod_eq_of_lt hsmall]
  · rw [List.mem_cons, List.mem_singleton] at h
    rcases h with rfl | rfl
    · rw [UInt16.toNat_ofNat'] at hu
      omega
    · rw [UInt16.toNat_ofNat'] at hu
      omega

namespace InternalType
open Text

/-- The type behind a contract is joined again as it was parted. -/
theorem qualifiedText_qualified (kind : InternalTypeKind) (us : List UInt16) :
    (qualified kind us).qualifiedText = ⟨us⟩ ∧ (qualified kind us).kind = kind := by
  unfold qualified
  split
  · next u ty hd =>
    split
    · exact ⟨rfl, rfl⟩
    · have hu : u = point := by
        have h := List.head?_dropWhile_not (· ≠ point) us
        rw [hd] at h
        simpa using h
      have happ := List.takeWhile_append_dropWhile (p := (· ≠ point)) (l := us)
      rw [hd, hu] at happ
      refine ⟨?_, rfl⟩
      change Utf16.mk (us.takeWhile (· ≠ point) ++ point :: ty) = ⟨us⟩
      rw [happ]
  · exact ⟨rfl, rfl⟩

/-- What stands behind a word is all that is left of a text without it. -/
theorem units_eq_of_behind? {word : String} {us r : List UInt16} (h : behind? word us = some r) :
    us = (Utf16.ofString (word ++ " ")).units ++ r := by
  unfold behind? at h
  dsimp only at h
  split at h
  · next hp =>
    cases h
    obtain ⟨s, rfl⟩ := List.isPrefixOf_iff_prefix.mp hp
    simp
  · cases h

theorem eq_append_of_behind? {word : String} {t : Utf16} {r : List UInt16}
    (h : behind? word t.units = some r) : t = Utf16.ofString (word ++ " ") ++ ⟨r⟩ :=
  congrArg Utf16.mk (units_eq_of_behind? h)

theorem text_of_declared {t : InternalType} (hk : t.kind = .enumeration ∨ t.kind = .struct) :
    t.text = Utf16.ofString (t.kind.word ++ " ") ++ t.qualifiedText := by
  unfold text
  rcases hk with hk | hk <;> rw [hk]

theorem text_of_other {t : InternalType} (hk : t.kind = .other) : t.text = t.qualifiedText := by
  unfold text
  rw [hk]

theorem text_qualified {kind : InternalTypeKind} (hk : kind = .enumeration ∨ kind = .struct)
    (us : List UInt16) :
    (qualified kind us).text = Utf16.ofString (kind.word ++ " ") ++ ⟨us⟩ := by
  obtain ⟨htext, hkind⟩ := qualifiedText_qualified kind us
  rw [text_of_declared (by rwa [hkind]), hkind, htext]

theorem text_qualified_other (us : List UInt16) : (qualified .other us).text = ⟨us⟩ := by
  obtain ⟨htext, hkind⟩ := qualifiedText_qualified .other us
  rw [text_of_other hkind, htext]

/-- Reading an annotation loses nothing. -/
theorem text_parse (t : Utf16) : (parse t).text = t := by
  unfold parse
  split
  · next h => exact h.symm
  · dsimp only
    split
    · next r hr => exact (eq_append_of_behind? hr).symm
    · split
      · next r hr => exact (text_qualified (.inl rfl) r).trans (eq_append_of_behind? hr).symm
      · split
        · next r hr => exact (text_qualified (.inr rfl) r).trans (eq_append_of_behind? hr).symm
        · exact text_qualified_other t.units

/-- The unit of a blank. -/
def space : UInt16 := 0x20

theorem behind?_eq_none {us : List UInt16} (h : space ∉ us) (word : String) :
    behind? word us = none := by
  cases hr : behind? word us with
  | none => rfl
  | some r =>
    refine absurd ?_ h
    rw [units_eq_of_behind? hr]
    refine List.mem_append_left _ ?_
    rw [Utf16.ofString, String.toList_append]
    exact List.mem_flatMap.mpr ⟨' ', by simp, by decide⟩

theorem ne_point_of_not_mem {us : List UInt16} (h : point ∉ us) :
    ∀ u ∈ us, decide (u ≠ point) = true := by
  intro u hu
  rw [decide_eq_true_eq]
  rintro rfl
  exact h hu

theorem qualified_of_not_mem {kind : InternalTypeKind} {us : List UInt16} (h : point ∉ us) :
    qualified kind us = ⟨kind, ⟨us⟩, none⟩ := by
  have hdrop : us.dropWhile (· ≠ point) = [] := by
    rw [← List.append_nil us, List.dropWhile_append_of_pos (ne_point_of_not_mem h),
      List.dropWhile_nil]
  rw [qualified, hdrop]

/-- A text without blanks and points says nothing but itself. -/
theorem parse_eq_other {s : String} (hblank : NoBlank s.toList) (hpoint : '.' ∉ s.toList) :
    parse s = ⟨.other, s, none⟩ := by
  have hspace : space ∉ (Utf16.ofString s).units := by
    intro h
    obtain ⟨c, hc, heq⟩ := Utf16.exists_mem_of_mem_ofChars (by decide) h
    have hc' := hblank c hc
    rw [← Char.ofNat_toNat c, heq] at hc'
    cases hc'
  have hpoint : point ∉ (Utf16.ofString s).units := by
    intro h
    obtain ⟨c, hc, heq⟩ := Utf16.exists_mem_of_mem_ofChars (by decide) h
    rw [← Char.ofNat_toNat c, heq] at hc
    exact hpoint hc
  have hne : Utf16.ofString s ≠ InternalTypeKind.addressPayable.word := by
    intro h
    rw [h] at hspace
    exact hspace (by decide)
  rw [parse, if_neg hne]
  simp only [behind?_eq_none hspace]
  exact qualified_of_not_mem hpoint

end InternalType

end ContractInterface

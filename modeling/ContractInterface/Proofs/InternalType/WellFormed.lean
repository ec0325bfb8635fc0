import ContractInterface.Proofs.InternalType
import Mathlib.Data.List.TakeWhile

/-! Well-formed annotations, the ones that texts say. Each of them is read from one text alone,
and that is the text it is written as. -/
namespace ContractInterface.InternalType

/-- The type and its contract are what the first point parts. Nothing is parted where no point
stands or where a tuple begins. -/
inductive Parted : InternalType → Prop
  | whole {kind : InternalTypeKind} {ty : Utf16} (no_point : point ∉ ty.units) :
      Parted ⟨kind, ty, none⟩
  | tuple {kind : InternalTypeKind} {ty : Utf16} (opened : ty.units.head? = some parenthesis) :
      Parted ⟨kind, ty, none⟩
  | apart {kind : InternalTypeKind} {contract ty : Utf16} (first : point ∉ contract.units)
      (not_opened : contract.units.head? ≠ some parenthesis) : Parted ⟨kind, ty, some contract⟩

/-- The word of a kind and a blank stand in front. -/
def Begins (kind : InternalTypeKind) (t : Utf16) : Prop :=
  ∃ r, t = Utf16.ofString (kind.word ++ " ") ++ r

/-- A text that says no kind. -/
structure Wordless (t : Utf16) : Prop where
  not_payable : t ≠ InternalTypeKind.addressPayable.word
  not_contract : ¬Begins .contract t
  not_enumeration : ¬Begins .enumeration t
  not_struct : ¬Begins .struct t

/-- A contract is named by all that stands behind its word, an enumeration and a struct by a
parted name, and any other type by a parted name that says no kind. -/
inductive WellFormed : InternalType → Prop
  | payable : WellFormed ⟨.addressPayable, "address", none⟩
  | contract (ty : Utf16) : WellFormed ⟨.contract, ty, none⟩
  | declared {t : InternalType} (kind_eq : t.kind = .enumeration ∨ t.kind = .struct)
      (parted : t.Parted) : WellFormed t
  | other {t : InternalType} (kind_eq : t.kind = .other) (parted : t.Parted)
      (wordless : Wordless t.qualifiedText) : WellFormed t

theorem parted_qualified (kind : InternalTypeKind) (us : List UInt16) :
    (qualified kind us).Parted := by
  unfold qualified
  split
  · next u ty hd =>
    split
    · next hopened => exact .tuple hopened
    · next hopened =>
      refine .apart ?_ ?_
      · intro h
        simpa using List.mem_takeWhile_imp h
      · change (us.takeWhile (· ≠ point)).head? ≠ some parenthesis
        intro h
        rw [List.head?_takeWhile, Option.filter_eq_some_iff] at h
        exact hopened h.1
  · next hd =>
    refine .whole fun h => ?_
    have hall := List.dropWhile_eq_nil_iff.mp hd
    simpa using hall point h

theorem qualified_of_opened {kind : InternalTypeKind} {us : List UInt16}
    (h : us.head? = some parenthesis) : qualified kind us = ⟨kind, ⟨us⟩, none⟩ := by
  unfold qualified
  split
  · rw [if_pos h]
  · rfl

/-- What stands before a point is parted from what stands behind it. -/
theorem qualified_append {kind : InternalTypeKind} {contract : List UInt16}
    (first : point ∉ contract) (not_opened : contract.head? ≠ some parenthesis)
    (ty : List UInt16) :
    qualified kind (contract ++ point :: ty) = ⟨kind, ⟨ty⟩, some ⟨contract⟩⟩ := by
  have hall := ne_point_of_not_mem first
  have hdrop : (contract ++ point :: ty).dropWhile (· ≠ point) = point :: ty := by
    rw [List.dropWhile_append_of_pos hall, List.dropWhile_cons_of_neg (by simp)]
  have htake : (contract ++ point :: ty).takeWhile (· ≠ point) = contract := by
    rw [List.takeWhile_append_of_pos hall, List.takeWhile_cons_of_neg (by simp), List.append_nil]
  have hhead : (contract ++ point :: ty).head? ≠ some parenthesis := by
    cases contract with
    | nil => exact fun h => absurd (Option.some.inj h) (by decide)
    | cons u us => exact not_opened
  rw [qualified, hdrop]
  dsimp only
  rw [if_neg hhead, htake]

/-- A parted name is parted again in the same way. -/
theorem Parted.qualified_eq {t : InternalType} (h : t.Parted) :
    qualified t.kind t.qualifiedText.units = t := by
  cases h with
  | whole no_point => exact qualified_of_not_mem no_point
  | tuple opened => exact qualified_of_opened opened
  | apart first not_opened => exact qualified_append first not_opened _

/-- The words of two kinds differ in their first letters. -/
theorem eq_of_head?_word {kind kind' : InternalTypeKind}
    (h : (Utf16.ofString kind.word).units.head? = (Utf16.ofString kind'.word).units.head?) :
    kind = kind' := by
  revert h
  cases kind <;> cases kind' <;> decide

theorem Begins.head?_eq {kind : InternalTypeKind} {t : Utf16} (h : Begins kind t) :
    t.units.head? = (Utf16.ofString kind.word).units.head? := by
  obtain ⟨r, rfl⟩ := h
  cases kind <;> rfl

/-- Only one word stands in front of a text. -/
theorem Begins.unique {kind kind' : InternalTypeKind} {t : Utf16} (h : Begins kind t)
    (h' : Begins kind' t) : kind = kind' :=
  eq_of_head?_word (h.head?_eq.symm.trans h'.head?_eq)

theorem Begins.ne_payable {kind : InternalTypeKind} {t : Utf16} (h : Begins kind t)
    (hk : kind ≠ .addressPayable) : t ≠ InternalTypeKind.addressPayable.word := by
  rintro rfl
  exact hk (eq_of_head?_word h.head?_eq.symm)

theorem behind?_append (kind : InternalTypeKind) (t : Utf16) :
    behind? kind.word (Utf16.ofString (kind.word ++ " ") ++ t).units = some t.units := by
  change behind? kind.word ((Utf16.ofString (kind.word ++ " ")).units ++ t.units) = _
  simp [behind?]

theorem behind?_of_not_begins {kind : InternalTypeKind} {t : Utf16} (h : ¬Begins kind t) :
    behind? kind.word t.units = none := by
  cases hr : behind? kind.word t.units with
  | none => rfl
  | some r => exact absurd ⟨⟨r⟩, eq_append_of_behind? hr⟩ h

theorem parse_payable :
    parse InternalTypeKind.addressPayable.word = ⟨.addressPayable, "address", none⟩ := by
  rw [parse, if_pos rfl]

theorem parse_contract (t : Utf16) :
    parse (Utf16.ofString (InternalTypeKind.contract.word ++ " ") ++ t) =
      ⟨.contract, t, none⟩ := by
  have hb : Begins .contract _ := ⟨t, rfl⟩
  rw [parse, if_neg (hb.ne_payable (by decide))]
  simp only [behind?_append]

theorem parse_declared {kind : InternalTypeKind} (hk : kind = .enumeration ∨ kind = .struct)
    (t : Utf16) :
    parse (Utf16.ofString (kind.word ++ " ") ++ t) = qualified kind t.units := by
  have hb : Begins kind _ := ⟨t, rfl⟩
  have hne : kind ≠ .addressPayable ∧ kind ≠ .contract := by rcases hk with rfl | rfl <;> decide
  -- the words that are tried earlier are not in front, since only one word is
  have hcontract := behind?_of_not_begins fun h => hne.2 (hb.unique h)
  rw [parse, if_neg (hb.ne_payable hne.1)]
  rcases hk with rfl | rfl
  · simp only [hcontract, behind?_append]
  · have hnot : ¬Begins .enumeration _ := fun h => absurd (hb.unique h) (by decide)
    simp only [hcontract, behind?_of_not_begins hnot, behind?_append]

theorem Wordless.parse_eq {t : Utf16} (h : Wordless t) : parse t = qualified .other t.units := by
  rw [parse, if_neg h.not_payable]
  simp only [behind?_of_not_begins h.not_contract, behind?_of_not_begins h.not_enumeration,
    behind?_of_not_begins h.not_struct]

theorem wellFormed_qualified {kind : InternalTypeKind}
    (hk : kind = .enumeration ∨ kind = .struct) (us : List UInt16) :
    (qualified kind us).WellFormed := by
  refine .declared ?_ (parted_qualified kind us)
  rwa [(qualifiedText_qualified kind us).2]

/-- Every annotation that is read is well-formed. -/
theorem wellFormed_parse (s : Utf16) : (parse s).WellFormed := by
  -- one case for each spelling, in the order in which they are tried
  by_cases hpayable : s = InternalTypeKind.addressPayable.word
  · rw [hpayable, parse_payable]
    exact .payable
  by_cases hcontract : Begins .contract s
  · obtain ⟨t, rfl⟩ := hcontract
    rw [parse_contract]
    exact .contract t
  by_cases henumeration : Begins .enumeration s
  · obtain ⟨t, rfl⟩ := henumeration
    rw [parse_declared (.inl rfl)]
    exact wellFormed_qualified (.inl rfl) t.units
  by_cases hstruct : Begins .struct s
  · obtain ⟨t, rfl⟩ := hstruct
    rw [parse_declared (.inr rfl)]
    exact wellFormed_qualified (.inr rfl) t.units
  have hwordless : Wordless s := ⟨hpayable, hcontract, henumeration, hstruct⟩
  obtain ⟨htext, hkind⟩ := qualifiedText_qualified .other s.units
  rw [hwordless.parse_eq]
  refine .other hkind (parted_qualified .other s.units) ?_
  rwa [htext]

/-- A well-formed annotation is read back from its text. -/
theorem WellFormed.parse_text {t : InternalType} (h : t.WellFormed) : parse t.text = t := by
  cases h with
  | payable => exact parse_payable
  | contract ty => exact parse_contract ty
  | declared kind_eq parted =>
    rw [text_of_declared kind_eq, parse_declared kind_eq]
    exact parted.qualified_eq
  | other kind_eq parted wordless =>
    rw [text_of_other kind_eq, wordless.parse_eq, ← kind_eq]
    exact parted.qualified_eq

theorem parse_eq_iff {s : Utf16} {t : InternalType} :
    parse s = t ↔ t.WellFormed ∧ t.text = s := by
  constructor
  · rintro rfl
    exact ⟨wellFormed_parse s, text_parse s⟩
  · rintro ⟨h, rfl⟩
    exact h.parse_text

/-- Reading an annotation loses nothing: it is written again as the text it was read from, no
other text reads as the same, and what was written reads as what it was. An annotation comes from
a text exactly if it is well-formed and that text is its own. -/
theorem parse_loses_nothing :
    (∀ s : Utf16, (parse s).text = s) ∧ Function.Injective parse ∧
      (∀ s, parse (parse s).text = parse s) ∧
        ∀ s t, parse s = t ↔ t.WellFormed ∧ t.text = s := by
  have hinverse : Function.LeftInverse text parse := text_parse
  refine ⟨hinverse, hinverse.injective, ?_, fun s t => parse_eq_iff⟩
  intro s
  exact (wellFormed_parse s).parse_text

-- The contract here begins with a word, so that the text says a struct.
example : parse (text ⟨.other, "b", some "struct A"⟩) = ⟨.struct, "b", some "A"⟩ := by
  decide +kernel

end ContractInterface.InternalType

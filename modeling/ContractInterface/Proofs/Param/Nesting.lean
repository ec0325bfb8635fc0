import ContractInterface.Proofs.Param.WellFormed

/-! How many tuples are open inside one another in a type or a parameter. A text is read as a type
exactly if their number is within the bound, whatever bound the derivation was made for. -/
namespace ContractInterface

namespace TypeSpec

mutual

def nesting : TypeSpec → Nat
  | named _ _ _ => 0
  | tuple _ _ members _ => nestingOf members + 1

def nestingOf : List TypeSpec → Nat
  | [] => 0
  | t :: ts => max (nesting t) (nestingOf ts)

end

mutual

theorem Written.nesting_le {n : Nat} {cs : List Char} {t : TypeSpec} (h : Written n cs t) :
    t.nesting ≤ n := by
  cases h with
  | named _ _ => exact Nat.zero_le n
  | tuple _ inside _ => exact Nat.succ_le_succ inside.nestingOf_le

theorem Body.nestingOf_le {n : Nat} {body : List Char} {ts : List TypeSpec} (h : Body n body ts) :
    nestingOf ts ≤ n := by
  cases h with
  | empty _ => exact Nat.zero_le n
  | last _ member _ => exact Nat.max_le.mpr ⟨member.nesting_le, Nat.zero_le n⟩
  | cons _ member _ others => exact Nat.max_le.mpr ⟨member.nesting_le, others.nestingOf_le⟩

end

mutual

/-- A derivation needs no more open tuples than its tree has. -/
theorem Written.of_nesting_le {n m : Nat} {cs : List Char} {t : TypeSpec} (h : Written n cs t)
    (hle : t.nesting ≤ m) : Written m cs t := by
  cases h with
  | named identifier dims => exact .named identifier dims
  | tuple keyword inside dims =>
    rw [nesting] at hle
    obtain ⟨k, rfl⟩ : ∃ k, m = k + 1 := ⟨m - 1, by omega⟩
    exact .tuple keyword (inside.of_nestingOf_le (Nat.le_of_succ_le_succ hle)) dims

theorem Body.of_nestingOf_le {n m : Nat} {body : List Char} {ts : List TypeSpec}
    (h : Body n body ts) (hle : nestingOf ts ≤ m) : Body m body ts := by
  cases h with
  | empty blanks => exact .empty blanks
  | last leading member trailing =>
    exact .last leading (member.of_nesting_le (Nat.max_le.mp hle).1) trailing
  | cons leading member trailing others =>
    obtain ⟨hfirst, hothers⟩ := Nat.max_le.mp hle
    exact .cons leading (member.of_nesting_le hfirst) trailing (others.of_nestingOf_le hothers)

end

theorem Written.exists_parse_iff {n : Nat} {cs : List Char} {t : TypeSpec} (h : Written n cs t) :
    (∃ t', parse (.ofList cs) = .ok t') ↔ t.nesting ≤ maxNesting := by
  constructor
  · rintro ⟨t', ht'⟩
    have hw := parse_eq_ok.mp ht'
    rw [String.toList_ofList, h.trim_eq] at hw
    have heq := (h.mono (Nat.le_max_left n maxNesting)).unique (hw.mono (Nat.le_max_right _ _))
    rw [heq]
    exact hw.nesting_le
  · intro hle
    exact ⟨t, (h.of_nesting_le hle).parse_ofList (Nat.le_refl _)⟩

end TypeSpec

namespace Param

mutual

def nesting : Param → Nat
  | ⟨_, ty, components, _, _⟩ =>
    if (tupleSuffix? ty.toList).isSome then nestingOf components + 1 else 0

def nestingOf : List Param → Nat
  | [] => 0
  | p :: ps => max (nesting p) (nestingOf ps)

end

theorem nestingOf_le_iff {ps : List Param} {n : Nat} :
    nestingOf ps ≤ n ↔ ∀ p ∈ ps, p.nesting ≤ n := by
  induction ps with
  | nil => simp [nestingOf]
  | cons p ps ih => rw [nestingOf, Nat.max_le, ih, List.forall_mem_cons]

@[simp] theorem nesting_asEventInput (p : Param) (indexed : Bool) :
    (p.asEventInput indexed).nesting = p.nesting := by
  cases p
  rfl

theorem nestingOf_eq_of_forall₂ {ps : List Param} {ts : List TypeSpec}
    (h : List.Forall₂ (fun p t => t.nesting = p.nesting) ps ts) :
    TypeSpec.nestingOf ts = nestingOf ps := by
  induction h with
  | nil => rfl
  | cons hpt _ ih => rw [TypeSpec.nestingOf, nestingOf, hpt, ih]

/-- Every level opens one tuple at most. -/
theorem WellFormed.nesting_le {n : Nat} {p : Param} (h : WellFormed n p) : p.nesting ≤ n := by
  induction h with
  | @mk n name ty components internalType name_ok type_ok annotated members ih =>
    rw [nesting]
    split
    · exact Nat.succ_le_succ (nestingOf_le_iff.mpr ih)
    · exact Nat.zero_le _

end Param

end ContractInterface

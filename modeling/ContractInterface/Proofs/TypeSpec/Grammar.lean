import ContractInterface.Proofs.Identifier
import ContractInterface.Proofs.Text.Blank
import ContractInterface.TypeSpec.Reader
import Mathlib.Data.List.Forall2

/-! The grammar of types. A derivation relates a text to the tree it writes: an identifier or a
tuple, and the dimensions behind it. The number bounds the tuples that are open at once. -/
namespace ContractInterface.TypeSpec
open Text

/-- What may stand between the brackets of a dimension: nothing, or a size. -/
inductive Size : List Char → Option Nat → Prop
  | unbounded : Size [] none
  | bounded {digits : List Char} (nonempty : digits ≠ [])
      (digit : ∀ c ∈ digits, c.isDigit = true) (limit : digits.length ≤ digitLimit)
      (positive : asciiNumber digits ≠ 0) : Size digits (some (asciiNumber digits))

inductive Dimensions : List Char → List (Option Nat) → Prop
  | nil : Dimensions [] []
  | cons {digits ds : List Char} {size : Option Nat} {sizes : List (Option Nat)}
      (first : Size digits size) (rest : Dimensions ds sizes) :
      Dimensions ('[' :: digits ++ ']' :: ds) (size :: sizes)

/-- What may stand in front of the opening parenthesis of a tuple. -/
inductive TupleWord : List Char → Prop
  | absent : TupleWord []
  | present : TupleWord ['t', 'u', 'p', 'l', 'e']

mutual

/-- The text writes the type, no more than the given number of tuples being open at once. -/
inductive Written : Nat → List Char → TypeSpec → Prop
  | named {n : Nat} {name ds : List Char} {sizes : List (Option Nat)}
      (identifier : Identifier.isValid name = true) (dims : Dimensions ds sizes) :
      Written n (name ++ ds) (.named (.ofList (name ++ ds)) (.ofList name) sizes)
  | tuple {n : Nat} {word body ds : List Char} {members : List TypeSpec}
      {sizes : List (Option Nat)} (keyword : TupleWord word) (inside : Body n body members)
      (dims : Dimensions ds sizes) :
      Written (n + 1) (word ++ '(' :: body ++ ')' :: ds)
        (.tuple (.ofList (word ++ '(' :: body ++ ')' :: ds))
          (.ofList (word ++ '(' :: body ++ [')'])) members sizes)

/-- What stands between the parentheses of a tuple: blanks, or members parted by commas with
blanks around each. -/
inductive Body : Nat → List Char → List TypeSpec → Prop
  | empty {n : Nat} {blank : List Char} (blanks : AllBlank blank) : Body n blank []
  | last {n : Nat} {before cs after : List Char} {t : TypeSpec} (leading : AllBlank before)
      (member : Written n cs t) (trailing : AllBlank after) : Body n (before ++ cs ++ after) [t]
  | cons {n : Nat} {before cs after body : List Char} {t t' : TypeSpec} {ts : List TypeSpec}
      (leading : AllBlank before) (member : Written n cs t) (trailing : AllBlank after)
      (others : Body n body (t' :: ts)) :
      Body n (before ++ cs ++ after ++ ',' :: body) (t :: t' :: ts)

end

theorem Size.isDigit {digits : List Char} {size : Option Nat} (h : Size digits size) :
    ∀ c ∈ digits, c.isDigit = true := by
  cases h with
  | unbounded => simp
  | bounded _ digit _ _ => exact digit

namespace Dimensions

theorem single {digits : List Char} (nonempty : digits ≠ [])
    (digit : ∀ c ∈ digits, c.isDigit = true) (limit : digits.length ≤ digitLimit)
    (positive : asciiNumber digits ≠ 0) :
    Dimensions ('[' :: digits ++ [']']) [some (asciiNumber digits)] :=
  .cons (.bounded nonempty digit limit positive) .nil

/-- Dimensions begin with a bracket unless there are none. -/
theorem eq_nil_or_cons {ds : List Char} {sizes : List (Option Nat)} (h : Dimensions ds sizes) :
    ds = [] ∨ ∃ r, ds = '[' :: r := by
  cases h with
  | nil => exact .inl rfl
  | cons _ _ => exact .inr ⟨_, rfl⟩

theorem mem_cases {ds : List Char} {sizes : List (Option Nat)} (h : Dimensions ds sizes) :
    ∀ c ∈ ds, c = '[' ∨ c = ']' ∨ c.isDigit = true := by
  induction h with
  | nil => simp
  | cons first _ ih =>
    intro c hc
    simp only [List.cons_append, List.mem_cons, List.mem_append] at hc
    rcases hc with rfl | hc | rfl | hc
    · exact .inl rfl
    · exact .inr (.inr (first.isDigit c hc))
    · exact .inr (.inl rfl)
    · exact ih c hc

/-- Dimensions end with a bracket unless there are none. -/
theorem eq_nil_or_append {ds : List Char} {sizes : List (Option Nat)} (h : Dimensions ds sizes) :
    ds = [] ∨ ∃ r, ds = r ++ [']'] := by
  induction h with
  | nil => exact .inl rfl
  | @cons digits ds size sizes _ _ ih =>
    right
    rcases ih with rfl | ⟨r, rfl⟩
    · exact ⟨'[' :: digits, rfl⟩
    · exact ⟨'[' :: digits ++ ']' :: r, by simp⟩

end Dimensions

mutual

theorem Written.mono {n m : Nat} {cs : List Char} {t : TypeSpec} (h : Written n cs t)
    (hle : n ≤ m) : Written m cs t := by
  cases h with
  | named identifier dims => exact .named identifier dims
  | tuple keyword inside dims =>
    obtain ⟨k, rfl⟩ : ∃ k, m = k + 1 := ⟨m - 1, by omega⟩
    exact .tuple keyword (inside.mono (by omega)) dims

theorem Body.mono {n m : Nat} {cs : List Char} {ts : List TypeSpec} (h : Body n cs ts)
    (hle : n ≤ m) : Body m cs ts := by
  cases h with
  | empty blanks => exact .empty blanks
  | last leading member trailing => exact .last leading (member.mono hle) trailing
  | cons leading member trailing others =>
    exact .cons leading (member.mono hle) trailing (others.mono hle)

end

theorem Body.leading_append {n : Nat} {blank body : List Char} {ts : List TypeSpec}
    (h : Body n body ts) (hb : AllBlank blank) : Body n (blank ++ body) ts := by
  cases h with
  | empty blanks => exact .empty (hb.append blanks)
  | last leading member trailing =>
    rw [← List.append_assoc, ← List.append_assoc]
    exact .last (hb.append leading) member trailing
  | cons leading member trailing others =>
    rw [← List.append_assoc, ← List.append_assoc, ← List.append_assoc]
    exact .cons (hb.append leading) member trailing others

/-- Without the blanks in front, a body with members begins with a type. -/
theorem Body.exists_dropBlank {n : Nat} {body : List Char} {t : TypeSpec} {ts : List TypeSpec}
    (h : Body n body (t :: ts)) :
    ∃ blank cs, AllBlank blank ∧ body = blank ++ cs ∧ Body n cs (t :: ts) ∧
      ∃ text r, cs = text ++ r ∧ Written n text t := by
  cases h with
  | @last _ before cs after _ leading member trailing =>
    refine ⟨before, cs ++ after, leading, by simp, ?_, cs, after, rfl, member⟩
    exact .last AllBlank.nil member trailing
  | @cons _ before cs after body _ _ _ leading member trailing others =>
    refine ⟨before, cs ++ after ++ ',' :: body, leading, by simp, ?_, cs, _, by simp; rfl, member⟩
    exact .cons AllBlank.nil member trailing others

namespace Written

variable {n : Nat} {cs : List Char} {t : TypeSpec}

/-- A tree keeps its text. -/
theorem span_eq (h : Written n cs t) : t.span = .ofList cs := by
  cases h <;> rfl

/-- A type begins with an identifier or a parenthesis. -/
theorem exists_cons (h : Written n cs t) :
    ∃ c r, cs = c :: r ∧ (Identifier.isStart c = true ∨ c = '(') := by
  cases h with
  | named identifier _ =>
    obtain ⟨c, r, rfl, hc⟩ := Identifier.exists_cons identifier
    exact ⟨c, _, rfl, .inl hc⟩
  | tuple keyword _ _ =>
    cases keyword with
    | absent => exact ⟨'(', _, rfl, .inr rfl⟩
    | present => exact ⟨'t', _, rfl, .inl (by decide)⟩

/-- A type ends with a part of an identifier, a bracket or a parenthesis. -/
theorem exists_append (h : Written n cs t) :
    ∃ r c, cs = r ++ [c] ∧ (Identifier.isPart c = true ∨ c = ']' ∨ c = ')') := by
  cases h with
  | @named _ name ds _ identifier dims =>
    rcases dims.eq_nil_or_append with rfl | ⟨r, rfl⟩
    · have hne : name ≠ [] := by
        rintro rfl
        cases identifier
      have hlast := Identifier.isPart_of_mem identifier _ (List.getLast_mem hne)
      refine ⟨name.dropLast, name.getLast hne, ?_, .inl hlast⟩
      rw [List.append_nil, List.dropLast_concat_getLast]
    · exact ⟨name ++ r, ']', by simp, .inr (.inl rfl)⟩
  | @tuple _ word body ds _ _ _ _ dims =>
    rcases dims.eq_nil_or_append with rfl | ⟨r, rfl⟩
    · exact ⟨word ++ '(' :: body, ')', by simp, .inr (.inr rfl)⟩
    · exact ⟨word ++ '(' :: body ++ ')' :: r, ']', by simp, .inr (.inl rfl)⟩

theorem exists_cons_not_isBlank (h : Written n cs t) :
    ∃ c r, cs = c :: r ∧ isBlank c = false ∧ c ≠ ')' := by
  obtain ⟨c, r, rfl, hc⟩ := h.exists_cons
  refine ⟨c, r, rfl, ?_⟩
  rcases hc with hc | rfl
  · have hpart := Identifier.isPart_of_isStart hc
    refine ⟨Identifier.isBlank_of_isPart hpart, ?_⟩
    rintro rfl
    cases hpart
  · decide

/-- There are no blanks around a type. -/
theorem trim_eq (h : Written n cs t) : trim cs = cs := by
  obtain ⟨c, r, rfl, hc, -⟩ := h.exists_cons_not_isBlank
  obtain ⟨s, d, hs, hd⟩ := h.exists_append
  refine trim_eq_self hc ?_ hs
  rcases hd with hd | rfl | rfl
  · exact Identifier.isBlank_of_isPart hd
  · decide
  · decide

end Written

/-- Every member takes at least one character. -/
theorem Body.length_le {n : Nat} {body : List Char} {ts : List TypeSpec} (h : Body n body ts) :
    ts.length ≤ body.length := by
  induction ts generalizing body with
  | nil => simp
  | cons t ts ih =>
    cases h with
    | last _ member _ =>
      obtain ⟨c, r, rfl, -⟩ := member.exists_cons
      simp only [List.length_cons, List.length_append, List.length_nil]
      omega
    | cons _ member _ others =>
      have := ih others
      simp only [List.length_cons, List.length_append] at *
      omega

/-- Types parted by commas alone are the members of a tuple. -/
theorem Body.of_forall₂ {n : Nat} {pieces : List (List Char)} {ts : List TypeSpec}
    (h : List.Forall₂ (Written n) pieces ts) : Body n ([','].intercalate pieces) ts := by
  induction h with
  | nil => exact .empty AllBlank.nil
  | @cons p t ps ts hw hrest ih =>
    cases hrest with
    | nil => simpa using Body.last AllBlank.nil hw AllBlank.nil
    | @cons q t' ps ts _ _ =>
      rw [List.intercalate_cons_cons]
      simpa using Body.cons AllBlank.nil hw AllBlank.nil ih

end ContractInterface.TypeSpec

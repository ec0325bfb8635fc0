import ContractInterface.Proofs.TypeSpec.Reading

/-! Why a text is refused as a type. Either something is wrong with it, or it has a size in it that
takes more digits than a number may be read from, and only the former is a failure of the text. -/
namespace ContractInterface

namespace TypeSpec
open Sequencing Text

/-- Somewhere in the text stands a size of this many digits, and they are too many. -/
def Oversized (n : Nat) (cs : List Char) : Prop :=
  digitLimit < n ∧ ∃ digits : List Char, digits.length = n ∧
    (∀ c ∈ digits, c.isDigit = true) ∧ '[' :: digits ++ [']'] <:+: cs

theorem Oversized.mono {n : Nat} {cs ds : List Char} (h : Oversized n cs) (hle : cs <:+: ds) :
    Oversized n ds := by
  obtain ⟨hn, digits, hlen, hd, hcs⟩ := h
  exact ⟨hn, digits, hlen, hd, hcs.trans hle⟩

/-- The text accounts for a halt: a size is too long only if it stands there. -/
inductive Halt.Accounted (cs : List Char) : Halt → Prop
  | fault (f : TypeFault) : Accounted cs (.fault f)
  | digitLimit {n : Nat} (oversized : Oversized n cs) : Accounted cs (.digitLimit n)

theorem Halt.Accounted.mono {cs ds : List Char} {e : Halt} (h : e.Accounted cs)
    (hle : cs <:+: ds) : e.Accounted ds := by
  cases h with
  | fault f => exact .fault f
  | digitLimit oversized => exact .digitLimit (oversized.mono hle)

variable {α : Type} {cs ds : List Char}

theorem failsIn_halt (fault : TypeFault) :
    FailsIn (Halt.Accounted cs) (halt fault : Except Halt α) := .error (.fault fault)

theorem failsIn_of_isInfix {x : Except Halt α} (h : FailsIn (Halt.Accounted cs) x)
    (hle : cs <:+: ds) : FailsIn (Halt.Accounted ds) x := h.mono fun _ he => he.mono hle

theorem failsIn_dimension {digits : List Char} (hd : ∀ c ∈ digits, c.isDigit = true) :
    FailsIn (Halt.Accounted ('[' :: digits ++ [']'])) (dimension digits) := by
  unfold dimension
  split
  · exact .ok none
  · split
    · next hlimit => exact .error (.digitLimit ⟨hlimit, digits, rfl, hd, List.infix_refl _⟩)
    · split
      · exact failsIn_halt _
      · exact .ok _

theorem failsIn_dimensions (cs : List Char) :
    FailsIn (Halt.Accounted cs) (dimensions cs) := by
  induction cs using dimensions.induct with
  | case1 r rest hdrop ih =>
    have hd : ∀ c ∈ r.takeWhile Char.isDigit, c.isDigit = true :=
      List.all_eq_true.mp List.all_takeWhile
    have hr : r = r.takeWhile Char.isDigit ++ ']' :: rest := by
      rw [← hdrop, List.takeWhile_append_dropWhile]
    generalize r.takeWhile Char.isDigit = digits at hd hr
    subst hr
    have hfirst : '[' :: digits ++ [']'] <:+: '[' :: (digits ++ ']' :: rest) := ⟨[], rest, by simp⟩
    have hrest : rest <:+: '[' :: (digits ++ ']' :: rest) :=
      ⟨'[' :: digits ++ [']'], [], by simp⟩
    rw [dimensions_cons hd]
    refine (failsIn_of_isInfix (failsIn_dimension hd) hfirst).bind fun size _ => ?_
    exact (failsIn_of_isInfix ih hrest).bind fun _ _ => .ok _
  | case2 r hdrop =>
    rw [dimensions]
    split
    · next hd => exact absurd hd (hdrop _)
    · exact failsIn_halt _
  | case3 cs hcs =>
    rw [dimensions_of_not_bracket hcs]
    exact .ok _

section
variable {member : List Char → Except Halt (TypeSpec × List Char)}

theorem failsIn_members
    (hm : ∀ cs, FailsIn (Halt.Accounted cs) (member cs))
    (hrest : ∀ {cs t rest}, member cs = .ok (t, rest) → rest <:+ cs) (n : Nat) (cs : List Char) :
    FailsIn (Halt.Accounted cs) (members member n cs) := by
  induction n generalizing cs with
  | zero => exact failsIn_halt _
  | succ n ih =>
    have hblank : dropBlank cs <:+ cs := List.dropWhile_suffix _
    rw [members]
    refine (failsIn_of_isInfix (hm _) hblank.isInfix).bind ?_
    rintro ⟨t, rest⟩ ht
    have hsuffix : dropBlank rest <:+ cs :=
      ((List.dropWhile_suffix _).trans (hrest ht)).trans hblank
    dsimp only
    split
    · exact failsIn_halt _
    · next r hr =>
      have hle : r <:+ cs := (List.suffix_cons ',' r).trans (hr ▸ hsuffix)
      exact (failsIn_of_isInfix (ih r) hle.isInfix).bind fun _ _ => .ok _
    · exact .ok _
    · exact failsIn_halt _

theorem failsIn_inside
    (hm : ∀ cs, FailsIn (Halt.Accounted cs) (member cs))
    (hrest : ∀ {cs t rest}, member cs = .ok (t, rest) → rest <:+ cs) (cs : List Char) :
    FailsIn (Halt.Accounted cs) (inside member cs) := by
  unfold inside
  split
  · exact .ok _
  · exact failsIn_of_isInfix (failsIn_members hm hrest _ _) (List.dropWhile_suffix _).isInfix

end

theorem suffix_of_read {n : Nat} {cs rest : List Char} {t : TypeSpec}
    (h : read n cs = .ok (t, rest)) : rest <:+ cs := by
  obtain ⟨text, rfl, -⟩ := read_sound h
  exact List.suffix_append text rest

theorem failsIn_read_of_tupleBody?_eq_none {n : Nat} {cs : List Char} (ht : tupleBody? cs = none) :
    FailsIn (Halt.Accounted cs) (read n cs) := by
  cases hs : Identifier.split? cs with
  | none =>
    unfold read
    rw [ht, hs]
    exact failsIn_halt _
  | some p =>
    obtain ⟨name, rest⟩ := p
    have hle : rest <:+: cs := (Identifier.split?_append hs ▸ List.suffix_append name rest).isInfix
    rw [read_of_tupleBody?_eq_none ht hs]
    exact (failsIn_of_isInfix (failsIn_dimensions rest) hle).bind fun _ _ => .ok _

theorem failsIn_read (n : Nat) (cs : List Char) : FailsIn (Halt.Accounted cs) (read n cs) := by
  induction n generalizing cs with
  | zero =>
    cases ht : tupleBody? cs with
    | none => exact failsIn_read_of_tupleBody?_eq_none ht
    | some body =>
      rw [read, ht]
      exact failsIn_halt _
  | succ n ih =>
    cases ht : tupleBody? cs with
    | none => exact failsIn_read_of_tupleBody?_eq_none ht
    | some body =>
      obtain ⟨word, -, rfl⟩ := tupleBody?_eq_some.mp ht
      have hbody : body <:+ word ++ '(' :: body :=
        (List.suffix_cons '(' body).trans (List.suffix_append word _)
      rw [read_succ_of_tupleBody?_eq_some ht]
      refine (failsIn_of_isInfix (failsIn_inside ih suffix_of_read body) hbody.isInfix).bind ?_
      rintro ⟨ts, stem⟩ hin
      obtain ⟨inner, rfl, -⟩ := inside_sound read_sound hin
      have hstem : stem <:+ word ++ '(' :: (inner ++ ')' :: stem) :=
        ((List.suffix_cons ')' stem).trans (List.suffix_append inner _)).trans hbody
      exact (failsIn_of_isInfix (failsIn_dimensions stem) hstem.isInfix).bind fun _ _ => .ok _

theorem failsIn_whole (cs : List Char) : FailsIn (Halt.Accounted cs) (whole cs) := by
  unfold whole
  split
  · exact failsIn_halt _
  · refine (failsIn_read _ cs).bind ?_
    rintro ⟨t, rest⟩ -
    cases rest with
    | nil => exact .ok t
    | cons c r => exact failsIn_halt _

end TypeSpec

/-- The text accounts for a failure: it is one of the text, or a size that is too long there. -/
inductive Failure.Accounted (cs : List Char) : Failure → Prop
  | parse {e : Failure} (own : e.isParse = true) : Accounted cs e
  | digitLimit {n : Nat} (oversized : TypeSpec.Oversized n cs) : Accounted cs (.digitLimit n)

theorem Failure.Accounted.mono {cs ds : List Char} {e : Failure} (h : e.Accounted cs)
    (hle : cs <:+: ds) : e.Accounted ds := by
  cases h with
  | parse own => exact .parse own
  | digitLimit oversized => exact .digitLimit (oversized.mono hle)

namespace TypeSpec
open Sequencing Text

theorem trim_isInfix (cs : List Char) : trim cs <:+: cs := by
  have hend : dropBlankEnd (dropBlank cs) <+: dropBlank cs := by
    rw [dropBlankEnd, ← List.reverse_suffix, List.reverse_reverse]
    exact List.dropWhile_suffix _
  exact hend.isInfix.trans (List.dropWhile_suffix _).isInfix

theorem failsIn_parse (s : String) : FailsIn (Failure.Accounted s.toList) (parse s) := by
  refine .mapError ((failsIn_whole (trim s.toList)).mono fun e he => ?_)
  cases he with
  | fault f => exact .parse rfl
  | digitLimit oversized => exact .digitLimit (oversized.mono (trim_isInfix _))

theorem trim_bracketed {name : List Char} (hn : Identifier.isValid name = true)
    (inner : List Char) :
    trim (name ++ '[' :: inner ++ [']']) = name ++ '[' :: inner ++ [']'] := by
  obtain ⟨c, cs, rfl, hc⟩ := Identifier.exists_cons hn
  have hblank := Identifier.isBlank_of_isPart (Identifier.isPart_of_isStart hc)
  exact trim_eq_self (d := ']') (s := c :: cs ++ '[' :: inner) hblank (by decide) (by simp)

/-- A size of too many digits is no failure of the text. -/
theorem parse_oversized {name digits : List Char} (hn : Identifier.isValid name = true)
    (hd : ∀ c ∈ digits, c.isDigit = true) (hlimit : digitLimit < digits.length) :
    parse (.ofList (name ++ '[' :: digits ++ [']'])) = .error (.digitLimit digits.length) := by
  have hdimension : dimension digits = .error (.digitLimit digits.length) := by
    rw [dimension, if_neg (by cases digits <;> simp at *), if_pos hlimit]
  have hdimensions : dimensions ('[' :: (digits ++ [']'])) =
      .error (.digitLimit digits.length) := by
    rw [dimensions_cons hd, hdimension]
    rfl
  have hbracket : ∀ c r, '[' :: (digits ++ [']']) = c :: r →
      Identifier.isPart c = false ∧ c ≠ '(' := by
    rintro c r ⟨⟩
    decide
  have hread : read maxNesting (name ++ '[' :: (digits ++ [']'])) =
      .error (.digitLimit digits.length) := by
    rw [read_of_tupleBody?_eq_none (tupleBody?_identifier hn hbracket)
      (Identifier.split?_of_isValid hn fun c r hc => (hbracket c r hc).1), hdimensions]
    rfl
  rw [parse, String.toList_ofList, trim_bracketed hn, List.append_assoc, whole,
    if_neg (by simp), List.cons_append, hread]
  rfl

end TypeSpec

end ContractInterface

import ContractInterface.Json.Depth
import ContractInterface.Json.Writer
import ContractInterface.Proofs.Text.Hexadecimal
import Mathlib.Data.List.Nodup

/-! How JSON on one line is made up. Its brackets lie no deeper inside one another than those of the
value, whatever stands in its texts. -/
namespace ContractInterface.Json
open Reader

/-- Values without numbers in which at most the given number of brackets are open inside one
another, and no key of an object occurs twice. -/
inductive Plain : Nat → Json → Prop
  | null {n : Nat} : Plain n .null
  | bool {n : Nat} (b : Bool) : Plain n (.bool b)
  | string {n : Nat} (t : Utf16) : Plain n (.string t)
  | array {n : Nat} {items : List Json} (members : ∀ x ∈ items, Plain n x) :
      Plain (n + 1) (.array items)
  | object {n : Nat} {fields : List (Utf16 × Json)} (keys : (fields.map (·.1)).Nodup)
      (values : ∀ f ∈ fields, Plain n f.2) : Plain (n + 1) (.object fields)

theorem Plain.mono {n m : Nat} {x : Json} (h : Plain n x) (hle : n ≤ m) : Plain m x := by
  induction h generalizing m with
  | null => exact .null
  | bool b => exact .bool b
  | string t => exact .string t
  | array _ ih =>
    obtain ⟨k, rfl⟩ : ∃ k, m = k + 1 := ⟨m - 1, by omega⟩
    exact .array fun x hx => ih x hx (by omega)
  | object keys _ ih =>
    obtain ⟨k, rfl⟩ : ∃ k, m = k + 1 := ⟨m - 1, by omega⟩
    exact .object keys fun f hf => ih f hf (by omega)

/-! ### Texts in quotes -/

theorem ofChar_ofNat {u : UInt16} (h : Char.ofNat u.toNat ≠ '\x00') :
    Utf16.ofChar (Char.ofNat u.toNat) = [u] := by
  by_cases hvalid : u.toNat.isValidChar
  · rw [Utf16.ofChar, Utf16.toNat_ofNat_char hvalid, if_pos u.toNat_lt, UInt16.ofNat_toNat]
  · rw [Char.ofNat, dif_neg hvalid] at h
    exact absurd rfl h

/-- A unit is written as an escape by letter, as itself, or as an escape by number. -/
theorem escapedUnit_cases (u : UInt16) :
    (∃ e c, escapedUnit u = ['\\', e] ∧ shortEscape? e = some c ∧ Utf16.ofChar c = [u]) ∨
      (∃ c, escapedUnit u = [c] ∧ c ≠ '"' ∧ c ≠ '\\' ∧ 0x20 ≤ c.toNat ∧ Utf16.ofChar c = [u]) ∨
      escapedUnit u = '\\' :: 'u' :: Text.hexDigits 4 u.toNat := by
  have short {c : Char} (hc : Char.ofNat u.toNat = c) (hne : c ≠ '\x00') :
      Utf16.ofChar c = [u] := by
    subst hc
    exact ofChar_ofNat hne
  unfold escapedUnit
  dsimp only
  -- the quote, the backslash, and the five controls that have a letter
  iterate 7
    split
    · next h => exact .inl ⟨_, _, rfl, rfl, short h (by decide)⟩
  split
  · next hquote hslash _ _ _ _ _ hprintable =>
    rw [Bool.and_eq_true, decide_eq_true_eq, decide_eq_true_eq] at hprintable
    have hn : (Char.ofNat u.toNat).toNat = u.toNat := by
      apply Utf16.toNat_ofNat_char
      simp only [Nat.isValidChar]
      omega
    have hprinted : 0x20 ≤ (Char.ofNat u.toNat).toNat := hn.symm ▸ hprintable.1
    refine .inr (.inl ⟨_, rfl, hquote, hslash, hprinted, ofChar_ofNat fun hzero => ?_⟩)
    rw [hzero] at hprinted
    cases hprinted
  · exact .inr (.inr rfl)

theorem toList_escaped (t : Utf16) :
    (escaped t).toList = '"' :: (t.units.flatMap escapedUnit ++ ['"']) := by
  simp [escaped]

/-! ### Members -/

theorem toList_enclose_line (depth : Nat) (opening closing : String) (members : List String) :
    (Layout.line.enclose depth opening closing members).toList =
      opening.toList ++ ([',', ' '].intercalate (members.map String.toList) ++ closing.toList) := by
  unfold Layout.enclose
  split
  · next h =>
    rw [List.isEmpty_iff.mp h]
    simp
  · simp [Layout.lineBreak, Layout.separator, String.toList_intercalate]

theorem toList_write_array (depth : Nat) (xs : List Json) :
    (write .line depth (.array xs)).toList = '[' ::
      ([',', ' '].intercalate (xs.map fun x => (write .line (depth + 1) x).toList) ++ [']']) := by
  have hitems : write.writeItems .line (depth + 1) xs = xs.map (write .line (depth + 1)) := by
    induction xs with
    | nil => rfl
    | cons x xs ih => rw [write.writeItems, ih, List.map_cons]
  rw [write, toList_enclose_line, hitems, List.map_map]
  rfl

/-- A field, its value written by the given text. -/
def fieldText (text : Json → List Char) (f : Utf16 × Json) : List Char :=
  (escaped f.1).toList ++ ':' :: ' ' :: text f.2

theorem toList_write_object (depth : Nat) (fields : List (Utf16 × Json)) :
    (write .line depth (.object fields)).toList = '\x7b' ::
      ([',', ' '].intercalate
        (fields.map (fieldText fun x => (write .line (depth + 1) x).toList)) ++ ['\x7d']) := by
  have hfields : (write.writeFields .line (depth + 1) fields).map String.toList =
      fields.map (fieldText fun x => (write .line (depth + 1) x).toList) := by
    induction fields with
    | nil => rfl
    | cons f fields ih =>
      rw [write.writeFields, List.map_cons, ih, List.map_cons, fieldText]
      simp
  rw [write, toList_enclose_line, hfields]
  rfl

/-! ### Brackets -/

/-- Behind a text that opens so many brackets inside one another all is as before it. -/
def Shallow (n : Nat) (text : List Char) : Prop :=
  ∀ depth place rest, depth + n ≤ maxDepth →
    tooDeep? .outside depth place (text ++ rest) =
      tooDeep? .outside depth (place + text.length) rest

theorem tooDeep?_inside {text : List Char} (h : ∀ c ∈ text, c ≠ '"' ∧ c ≠ '\\')
    (depth place : Nat) (rest : List Char) :
    tooDeep? .inside depth place (text ++ rest) =
      tooDeep? .inside depth (place + text.length) rest := by
  induction text generalizing place with
  | nil => rfl
  | cons c text ih =>
    obtain ⟨⟨hquote, hslash⟩, htext⟩ := List.forall_mem_cons.mp h
    rw [List.cons_append, tooDeep?, ih htext, List.length_cons]
    · congr 1
      omega
    · exact hslash
    · exact hquote

theorem tooDeep?_escapedUnit (u : UInt16) (depth place : Nat) (rest : List Char) :
    tooDeep? .inside depth place (escapedUnit u ++ rest) =
      tooDeep? .inside depth (place + (escapedUnit u).length) rest := by
  rcases escapedUnit_cases u with ⟨e, c, hu, -, -⟩ | ⟨c, hu, hquote, hslash, -, -⟩ | hu
  · rw [hu]
    simp [tooDeep?]
  · rw [hu]
    exact tooDeep?_inside (by simp [hquote, hslash]) depth place rest
  · have hdigits : ∀ c ∈ Text.hexDigits 4 u.toNat, c ≠ '"' ∧ c ≠ '\\' := by
      intro c hc
      obtain ⟨n, hn, rfl⟩ := Text.mem_hexDigits (by decide) u.toNat_lt hc
      exact Text.digitChar_ne_quote n hn
    rw [hu, List.cons_append, List.cons_append, tooDeep?, tooDeep?, tooDeep?_inside hdigits]
    simp only [List.length_cons]
    congr 1
    omega

theorem Shallow.escaped (n : Nat) (t : Utf16) : Shallow n (escaped t).toList := by
  have hunits (us : List UInt16) (depth place : Nat) (rest : List Char) :
      tooDeep? .inside depth place (us.flatMap escapedUnit ++ '"' :: rest) =
        tooDeep? .outside depth (place + (us.flatMap escapedUnit).length + 1) rest := by
    induction us generalizing place with
    | nil => rfl
    | cons u us ih =>
      rw [List.flatMap_cons, List.append_assoc, tooDeep?_escapedUnit, ih, List.length_append]
      congr 1
      omega
  intro depth place rest _
  rw [toList_escaped, List.cons_append, List.append_assoc, List.singleton_append, tooDeep?, hunits]
  simp only [List.length_cons, List.length_append, List.length_nil]
  congr 1
  omega

namespace Shallow

variable {n : Nat} {text text' : List Char}

theorem nil (n : Nat) : Shallow n [] := fun _ _ _ _ => rfl

/-- Text without brackets and quotes. -/
theorem quiet (h : ∀ c ∈ text, c ∉ ['"', '[', ']', '\x7b', '\x7d']) : Shallow n text := by
  intro depth place rest hle
  induction text generalizing place with
  | nil => rfl
  | cons c text ih =>
    obtain ⟨hc, htext⟩ := List.forall_mem_cons.mp h
    simp only [List.mem_cons, List.not_mem_nil, or_false, not_or] at hc
    obtain ⟨hquote, hsquare, hsquare', hbrace, hbrace'⟩ := hc
    have hopen : Bracket.ofChar? c = none := by
      unfold Bracket.ofChar?
      split
      · exact absurd rfl hsquare
      · exact absurd rfl hbrace
      · rfl
    rw [List.cons_append, tooDeep?, hopen]
    · simp only [hsquare', hbrace', decide_false, Bool.or_false]
      rw [if_neg Bool.false_ne_true, ih htext, List.length_cons]
      congr 1
      omega
    · exact hquote

theorem append (h : Shallow n text) (h' : Shallow n text') : Shallow n (text ++ text') := by
  intro depth place rest hle
  rw [List.append_assoc, h _ _ _ hle, h' _ _ _ hle, List.length_append, Nat.add_assoc]

theorem intercalate {sep : List Char} {texts : List (List Char)} (hsep : Shallow n sep)
    (h : ∀ text ∈ texts, Shallow n text) : Shallow n (sep.intercalate texts) := by
  induction texts with
  | nil => exact nil n
  | cons text texts ih =>
    obtain ⟨htext, htexts⟩ := List.forall_mem_cons.mp h
    cases texts with
    | nil => simpa using htext
    | cons text' texts =>
      rw [List.intercalate_cons_cons]
      exact (htext.append hsep).append (ih htexts)

/-- What is inside a pair of brackets is one level down. -/
theorem enclosed {opening closing : Char} {bracket : Bracket}
    (hopening : Bracket.ofChar? opening = some bracket)
    (hclosing : closing = ']' ∨ closing = '\x7d') (h : Shallow n text) :
    Shallow (n + 1) (opening :: (text ++ [closing])) := by
  have hquote : opening ≠ '"' := by
    rintro rfl
    cases hopening
  intro depth place rest hle
  rw [List.cons_append, List.append_assoc, List.singleton_append, tooDeep?, hopening]
  · dsimp only
    rw [if_neg (by omega), h _ _ _ (by omega)]
    have hclose : tooDeep? .outside (depth + 1) (place + 1 + text.length) (closing :: rest) =
        tooDeep? .outside depth (place + 1 + text.length + 1) rest := by
      rcases hclosing with rfl | rfl
      · rfl
      · rfl
    rw [hclose, List.length_cons, List.length_append]
    simp only [List.length_singleton]
    congr 1
    omega
  · exact hquote

end Shallow

/-- The brackets of a text are those of its value. -/
theorem Plain.shallow {n : Nat} {x : Json} (h : Plain n x) (depth : Nat) :
    Shallow n (write .line depth x).toList := by
  have separator (n : Nat) : Shallow n [',', ' '] := .quiet (by simp)
  have colon (n : Nat) : Shallow n [':', ' '] := .quiet (by simp)
  induction h generalizing depth with
  | null =>
    rw [write]
    exact .quiet (by simp)
  | bool b =>
    cases b
    · rw [write]
      exact .quiet (by simp)
    · rw [write]
      exact .quiet (by simp)
  | string t =>
    rw [write]
    exact .escaped _ t
  | array _ ih =>
    rw [toList_write_array]
    refine .enclosed rfl (.inl rfl) (.intercalate (separator _) ?_)
    rw [List.forall_mem_map]
    exact fun x hx => ih x hx _
  | object _ _ ih =>
    rw [toList_write_object]
    refine .enclosed rfl (.inr rfl) (.intercalate (separator _) ?_)
    rw [List.forall_mem_map]
    exact fun f hf => (Shallow.escaped _ f.1).append ((colon _).append (ih f hf _))

end ContractInterface.Json

import ContractInterface.Proofs.Json.Text
import Mathlib.Data.List.Forall2

/-! JSON that is written on one line is read again. What is read of a text goes by its first
characters alone, so each value is read from its own text, whatever stands behind it. -/
namespace ContractInterface.Json
open Reader

theorem stringUnits_escapedUnit (start : Nat) (u : UInt16) (e : Char) (rest : List Char) :
    stringUnits start (escapedUnit u ++ e :: rest) =
      (stringUnits start (e :: rest)).map fun (us, r) => (u :: us, r) := by
  rcases escapedUnit_cases u with ⟨l, c, hu, hl, hc⟩ | ⟨c, hu, hquote, hslash, hprintable, hc⟩ | hu
  · have hne : l ≠ 'u' := by
      rintro rfl
      cases hl
    rw [hu, List.cons_append, List.cons_append, List.nil_append, stringUnits, hl]
    · simp only [hc, List.singleton_append]
    · exact fun _ _ _ _ _ _ h => absurd h hne
    · exact hne
  · rw [hu, List.singleton_append, stringUnits, if_neg (by omega)]
    · simp only [hc, List.singleton_append]
    · exact hquote
    all_goals simp [hslash]
  · have hlt : u.toNat < 16 ^ 4 := u.toNat_lt
    have hlength := Text.length_hexDigits (by decide) hlt
    have hnumber := Text.hexNumber?_hexDigits (by decide) hlt
    obtain ⟨a, b, c, d, hdigits⟩ : ∃ a b c d, Text.hexDigits 4 u.toNat = [a, b, c, d] := by
      match Text.hexDigits 4 u.toNat, hlength with
      | [a, b, c, d], _ => exact ⟨a, b, c, d, rfl⟩
    rw [hdigits] at hu hnumber
    rw [hu]
    simp only [List.cons_append, List.nil_append, stringUnits, hnumber, UInt16.ofNat_toNat]

/-- A text is read up to its closing quote. -/
theorem stringUnits_flatMap (start : Nat) (us : List UInt16) (rest : List Char) :
    stringUnits start (us.flatMap escapedUnit ++ '"' :: rest) = .ok (us, rest) := by
  induction us with
  | nil => rfl
  | cons u us ih =>
    obtain ⟨e, tail, htail⟩ :
        ∃ e tail, us.flatMap escapedUnit ++ '"' :: rest = e :: tail :=
      List.exists_cons_of_ne_nil (by simp)
    rw [List.flatMap_cons, List.append_assoc, htail, stringUnits_escapedUnit, ← htail, ih]
    rfl

theorem string_units (t : Utf16) (rest : List Char) :
    Reader.string (t.units.flatMap escapedUnit ++ '"' :: rest) = .ok (t, rest) := by
  rw [Reader.string, stringUnits_flatMap]
  rfl

/-- The text starts as a value does. -/
def Starts (cs : List Char) : Prop := ∃ c r, cs = c :: r ∧ c ∈ ['n', 't', 'f', '"', '[', '\x7b']

namespace Starts

variable {cs : List Char}

theorem append (h : Starts cs) (rest : List Char) : Starts (cs ++ rest) := by
  obtain ⟨c, r, rfl, hc⟩ := h
  exact ⟨c, r ++ rest, rfl, hc⟩

theorem intercalate {sep : List Char} {texts : List (List Char)} (hne : texts ≠ [])
    (h : ∀ text ∈ texts, Starts text) : Starts (sep.intercalate texts) := by
  match texts with
  | [text] => simpa using h
  | text :: text' :: texts =>
    rw [List.intercalate_cons_cons, List.append_assoc]
    exact (h text (by simp)).append _

theorem skip_eq (h : Starts cs) : skip cs = cs := by
  obtain ⟨c, r, rfl, hc⟩ := h
  have hblank : ∀ c ∈ ['n', 't', 'f', '"', '[', '\x7b'], isBlank c = false := by
    simp [isBlank]
  rw [skip, List.dropWhile_cons_of_neg (by simp [hblank c hc])]

theorem ne_cons (h : Starts cs) {c : Char} (hc : c ∉ ['n', 't', 'f', '"', '[', '\x7b'])
    (r : List Char) : cs ≠ c :: r := by
  rintro rfl
  obtain ⟨c', r', heq, hc'⟩ := h
  cases heq
  exact hc hc'

end Starts

/-- The value is read at the front of any text that starts with the given one. -/
structure ReadAs (text : List Char) (x : Json) : Prop where
  starts : Starts text
  value_eq : ∀ {steps : Nat} (rest : List Char), 2 * text.length ≤ steps →
    value steps (text ++ rest) = .ok (x, rest)

/-- A text that starts as a value takes one step at least. -/
theorem ReadAs.of_succ {text : List Char} {x : Json} (hstarts : Starts text)
    (h : ∀ steps rest, 2 * text.length ≤ steps + 1 →
      value (steps + 1) (text ++ rest) = .ok (x, rest)) : ReadAs text x := by
  refine ⟨hstarts, fun {steps} rest hsteps => ?_⟩
  obtain ⟨c, r, rfl, -⟩ := hstarts
  rw [List.length_cons] at hsteps
  obtain ⟨k, rfl⟩ : ∃ k, steps = k + 1 := ⟨steps - 1, by omega⟩
  exact h k rest hsteps

theorem intercalate_comma (text text' : List Char) (texts : List (List Char)) :
    [',', ' '].intercalate (text :: text' :: texts) =
      text ++ ',' :: ' ' :: [',', ' '].intercalate (text' :: texts) := by
  rw [List.intercalate_cons_cons, List.append_assoc]
  rfl

/-- Behind a comma and a blank the next member is read. -/
theorem skip_blank {cs : List Char} (h : Starts cs) : skip (' ' :: cs) = cs := h.skip_eq

section

variable {steps : Nat} {text : List Char} {x : Json}

theorem items_last (h : ReadAs text x) (hsteps : 2 * text.length ≤ steps) (rest : List Char) :
    items (steps + 1) (text ++ ']' :: rest) = .ok ([x], rest) := by
  rw [items, h.value_eq _ hsteps]
  rfl

theorem items_more (h : ReadAs text x) (hsteps : 2 * text.length ≤ steps) {more : List Char}
    (hmore : Starts more) :
    items (steps + 1) (text ++ ',' :: ' ' :: more) =
      (items steps more).map fun (xs, rest) => (x :: xs, rest) := by
  have hskip := skip_blank hmore
  rw [items, h.value_eq _ hsteps]
  change (items steps (skip (' ' :: more))).map _ = _
  rw [hskip]

end

/-- Each member takes a step, and its own characters leave enough of them for those behind it. -/
theorem items_intercalate {text : Json → List Char} {xs : List Json} (hne : xs ≠ [])
    (h : ∀ x ∈ xs, ReadAs (text x) x) {steps : Nat} (rest : List Char)
    (hsteps : 2 * ([',', ' '].intercalate (xs.map text)).length < steps) :
    items steps ([',', ' '].intercalate (xs.map text) ++ ']' :: rest) = .ok (xs, rest) := by
  induction xs generalizing steps with
  | nil => exact absurd rfl hne
  | cons x xs ih =>
    obtain ⟨hx, hxs⟩ := List.forall_mem_cons.mp h
    obtain ⟨steps, rfl⟩ : ∃ k, steps = k + 1 := ⟨steps - 1, by omega⟩
    cases xs with
    | nil =>
      rw [List.map_singleton, List.intercalate_singleton] at hsteps ⊢
      exact items_last hx (by omega) rest
    | cons y ys =>
      have hstarts : Starts ([',', ' '].intercalate ((y :: ys).map text)) :=
        .intercalate (by simp) (List.forall_mem_map.mpr fun z hz => (hxs z hz).starts)
      have htext := intercalate_comma (text x) (text y) (ys.map text)
      rw [List.map_cons] at hstarts ih
      rw [List.map_cons, List.map_cons, htext] at hsteps ⊢
      simp only [List.length_append, List.length_cons] at hsteps
      rw [List.append_assoc, List.cons_append, List.cons_append,
        items_more hx (by omega) (hstarts.append _), ih (by simp) hxs (by omega)]
      rfl

theorem setField_new {fields : List (Utf16 × Json)} {key : Utf16} (h : key ∉ fields.map (·.1))
    (x : Json) : setField fields key x = fields ++ [(key, x)] := by
  rw [setField, if_neg]
  rw [List.any_eq_true]
  rintro ⟨f, hf, heq⟩
  exact h (List.mem_map.mpr ⟨f, hf, eq_of_beq heq⟩)

section

variable {steps : Nat} {text : Json → List Char} {f : Utf16 × Json} {before : List (Utf16 × Json)}

theorem starts_fieldText (text : Json → List Char) (f : Utf16 × Json) :
    Starts (fieldText text f) := by
  rw [fieldText, toList_escaped]
  exact ⟨'"', _, rfl, by decide⟩

/-- A field with a new key is read, and then what is behind it. -/
theorem fields_cons (h : ReadAs (text f.2) f.2) (hsteps : 2 * (text f.2).length ≤ steps)
    (hkey : f.1 ∉ before.map (·.1)) (rest : List Char) :
    fields (steps + 1) before (fieldText text f ++ rest) =
      match skip rest with
      | '\x7d' :: r => .ok (before ++ [f], r)
      | ',' :: r => fields steps (before ++ [f]) (skip r)
      | r => refuse .commaExpected r := by
  obtain ⟨key, x⟩ := f
  have hstring := string_units key (':' :: ' ' :: (text x ++ rest))
  have hvalue : skip (' ' :: (text x ++ rest)) = text x ++ rest := skip_blank (h.starts.append _)
  rw [← setField_new hkey, fieldText, toList_escaped]
  simp only [List.cons_append, List.append_assoc, List.nil_append]
  rw [fields, hstring]
  change (value steps (skip (' ' :: (text x ++ rest))) >>= _) = _
  rw [hvalue, h.value_eq rest hsteps]
  rfl

theorem fields_last (h : ReadAs (text f.2) f.2) (hsteps : 2 * (text f.2).length ≤ steps)
    (hkey : f.1 ∉ before.map (·.1)) (rest : List Char) :
    fields (steps + 1) before (fieldText text f ++ '\x7d' :: rest) = .ok (before ++ [f], rest) :=
  fields_cons h hsteps hkey _

theorem fields_more (h : ReadAs (text f.2) f.2) (hsteps : 2 * (text f.2).length ≤ steps)
    (hkey : f.1 ∉ before.map (·.1)) {more : List Char} (hmore : Starts more) :
    fields (steps + 1) before (fieldText text f ++ ',' :: ' ' :: more) =
      fields steps (before ++ [f]) more := by
  have hskip := skip_blank hmore
  rw [fields_cons h hsteps hkey]
  change fields steps (before ++ [f]) (skip (' ' :: more)) = _
  rw [hskip]

end

theorem length_fieldText (text : Json → List Char) (f : Utf16 × Json) :
    (text f.2).length ≤ (fieldText text f).length := by
  simp only [fieldText, List.length_append, List.length_cons]
  omega

/-- Fields with keys that differ from one another, and from those before them. -/
theorem fields_intercalate {text : Json → List Char} {fs before : List (Utf16 × Json)}
    (hne : fs ≠ []) (h : ∀ f ∈ fs, ReadAs (text f.2) f.2)
    (hkeys : ((before ++ fs).map (·.1)).Nodup) {steps : Nat} (rest : List Char)
    (hsteps : 2 * ([',', ' '].intercalate (fs.map (fieldText text))).length < steps) :
    fields steps before ([',', ' '].intercalate (fs.map (fieldText text)) ++ '\x7d' :: rest) =
      .ok (before ++ fs, rest) := by
  induction fs generalizing steps before with
  | nil => exact absurd rfl hne
  | cons f fs ih =>
    obtain ⟨hf, hfs⟩ := List.forall_mem_cons.mp h
    obtain ⟨steps, rfl⟩ : ∃ k, steps = k + 1 := ⟨steps - 1, by omega⟩
    have hlength := length_fieldText text f
    have hkey : f.1 ∉ before.map (·.1) := by
      rw [List.map_append, List.map_cons] at hkeys
      intro hmem
      exact (List.nodup_append.mp hkeys).2.2 _ hmem _ (by simp) rfl
    cases fs with
    | nil =>
      rw [List.map_singleton, List.intercalate_singleton] at hsteps ⊢
      exact fields_last hf (by omega) hkey rest
    | cons g gs =>
      have hstarts : Starts ([',', ' '].intercalate ((g :: gs).map (fieldText text))) :=
        .intercalate (by simp) (List.forall_mem_map.mpr fun g _ => starts_fieldText text g)
      have htext := intercalate_comma (fieldText text f) (fieldText text g)
        (gs.map (fieldText text))
      rw [List.map_cons] at hstarts ih
      rw [List.map_cons, List.map_cons, htext] at hsteps ⊢
      simp only [List.length_append, List.length_cons] at hsteps
      rw [List.append_assoc, List.cons_append, List.cons_append,
        fields_more hf (by omega) hkey (hstarts.append _),
        ih (by simp) hfs (by simpa using hkeys) (by omega)]
      simp

theorem value_array {cs : List Char} (h : Starts cs) (steps : Nat) :
    value (steps + 1) ('[' :: cs) = (items steps cs).map fun (xs, rest) => (.array xs, rest) := by
  rw [value, h.skip_eq]
  split
  · next r => exact (h.ne_cons (by decide) r rfl).elim
  · rfl

theorem value_object {cs : List Char} (h : Starts cs) (steps : Nat) :
    value (steps + 1) ('\x7b' :: cs) =
      (fields steps [] cs).map fun (fs, rest) => (.object fs, rest) := by
  rw [value, h.skip_eq]
  split
  · next r => exact (h.ne_cons (by decide) r rfl).elim
  · rfl

/-- The text of a value is read as that value. -/
theorem Plain.readAs {n : Nat} {x : Json} (h : Plain n x) (depth : Nat) :
    ReadAs (write .line depth x).toList x := by
  induction h generalizing depth with
  | null =>
    rw [write]
    exact .of_succ ⟨'n', _, rfl, by decide⟩ fun _ _ _ => rfl
  | bool b =>
    cases b
    · rw [write]
      exact .of_succ ⟨'f', _, rfl, by decide⟩ fun _ _ _ => rfl
    · rw [write]
      exact .of_succ ⟨'t', _, rfl, by decide⟩ fun _ _ _ => rfl
  | string t =>
    rw [write, toList_escaped]
    refine .of_succ ⟨'"', _, rfl, by decide⟩ fun steps rest _ => ?_
    rw [List.cons_append, List.append_assoc, List.singleton_append, value, string_units]
    rfl
  | @array n xs _ ih =>
    rw [toList_write_array]
    refine .of_succ ⟨'[', _, rfl, by decide⟩ fun steps rest hsteps => ?_
    rcases eq_or_ne xs [] with rfl | hne
    · rfl
    · have hmembers : ∀ x ∈ xs, ReadAs (write .line (depth + 1) x).toList x := fun x hx => ih x hx _
      have hstarts : Starts
          ([',', ' '].intercalate (xs.map fun x => (write .line (depth + 1) x).toList)) :=
        .intercalate (by simpa) (List.forall_mem_map.mpr fun x hx => (hmembers x hx).starts)
      simp only [List.length_append, List.length_cons] at hsteps
      rw [List.cons_append, List.append_assoc, List.singleton_append,
        value_array (hstarts.append _), items_intercalate hne hmembers rest (by omega)]
      rfl
  | @object n fs keys _ ih =>
    rw [toList_write_object]
    refine .of_succ ⟨'\x7b', _, rfl, by decide⟩ fun steps rest hsteps => ?_
    rcases eq_or_ne fs [] with rfl | hne
    · rfl
    · have hvalues : ∀ f ∈ fs, ReadAs (write .line (depth + 1) f.2).toList f.2 :=
        fun f hf => ih f hf _
      have hstarts : Starts ([',', ' '].intercalate
          (fs.map (fieldText fun x => (write .line (depth + 1) x).toList))) :=
        .intercalate (by simpa) (List.forall_mem_map.mpr fun f _ => starts_fieldText _ f)
      have hkeys : (([] ++ fs : List (Utf16 × Json)).map (·.1)).Nodup := keys
      simp only [List.length_append, List.length_cons] at hsteps
      rw [List.cons_append, List.append_assoc, List.singleton_append,
        value_object (hstarts.append _), fields_intercalate hne hvalues hkeys rest (by omega)]
      rfl

/-- What is written is read again, if it does not lie too deep. -/
theorem Plain.read_compact {x : Json} (h : Plain maxDepth x) : read x.compact = .ok x := by
  have hdeep := h.shallow 0 0 0 [] (by omega)
  obtain ⟨hstarts, hvalue⟩ := h.readAs 0
  have hx := hvalue [] (Nat.le_add_right _ 2)
  rw [List.append_nil] at hdeep hx
  have hmark : (write .line 0 x).toList.head? ≠ some '\uFEFF' := by
    obtain ⟨c, r, heq, hc⟩ := hstarts
    rw [heq, List.head?_cons]
    rintro ⟨⟩
    revert hc
    decide
  have hparse : parse x.compact = .ok x := by
    rw [parse, compact, whole, if_neg hmark, hstarts.skip_eq, hx]
    rfl
  rw [read, compact, hdeep]
  exact hparse

end ContractInterface.Json

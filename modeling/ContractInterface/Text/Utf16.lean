import ContractInterface.Text.Quoted

/-! Texts in UTF-16, as JSON gives them. The surrogates of such a text need not pair up, and half
of a pair that stands alone is no character, so not every such text is a string. Every string is
one, and is got back from it. -/
namespace ContractInterface

structure Utf16 where
  units : List UInt16
  deriving DecidableEq

/-- What a text shows at one place: a character, or half of a surrogate pair. -/
inductive CodePoint
  | char (c : Char)
  | half (unit : UInt16)
  deriving DecidableEq

namespace CodePoint

def char? : CodePoint → Option Char
  | char c => some c
  | half _ => none

def half? : CodePoint → Option UInt16
  | char _ => none
  | half u => some u

/-- The number of a code point. -/
def toNat : CodePoint → Nat
  | char c => c.toNat
  | half u => u.toNat

/-- A code point inside quotes. A half is written by its number. -/
def quotedIn (quote : Char) : CodePoint → List Char
  | char c => Text.quotedChar quote c
  | half u => '\\' :: 'u' :: Text.hexDigits 4 u.toNat

def quoted : CodePoint → String
  | char c => Text.quoted c.toString
  | half u => String.ofList ('\'' :: quotedIn '\'' (half u) ++ ['\''])

end CodePoint

namespace Utf16

/-- The units of a character: one, or a surrogate pair above U+FFFF. -/
def ofChar (c : Char) : List UInt16 :=
  if c.toNat < 0x10000 then [.ofNat c.toNat]
  else [.ofNat (0xD800 + (c.toNat - 0x10000) / 0x400),
    .ofNat (0xDC00 + (c.toNat - 0x10000) % 0x400)]

def ofChars (cs : List Char) : List UInt16 := cs.flatMap ofChar

def ofString (s : String) : Utf16 := ⟨ofChars s.toList⟩

instance : Coe String Utf16 := ⟨ofString⟩

def ofPoints (xs : List CodePoint) : Utf16 :=
  ⟨xs.flatMap fun
    | .char c => ofChar c
    | .half u => [u]⟩

instance : Append Utf16 := ⟨fun t t' => ⟨t.units ++ t'.units⟩⟩

/-- Texts one behind the other with a separator between them. -/
def intercalate (separator : Utf16) (ts : List Utf16) : Utf16 :=
  ⟨separator.units.intercalate (ts.map (·.units))⟩

def isEmpty (t : Utf16) : Bool := t.units.isEmpty

def isHigh (u : UInt16) : Bool := 0xD800 ≤ u.toNat && u.toNat < 0xDC00

def isLow (u : UInt16) : Bool := 0xDC00 ≤ u.toNat && u.toNat < 0xE000

/-- The character that two halves make. -/
def joined (high low : UInt16) : Char :=
  Char.ofNat (0x10000 + (high.toNat - 0xD800) * 0x400 + (low.toNat - 0xDC00))

/-- A unit that is no part of a pair. -/
def lonePoint (u : UInt16) : CodePoint :=
  if isHigh u || isLow u then .half u else .char (Char.ofNat u.toNat)

def pointsOf : List UInt16 → List CodePoint
  | [] => []
  | [u] => [lonePoint u]
  | u :: v :: r =>
    if isHigh u && isLow v then .char (joined u v) :: pointsOf r
    else lonePoint u :: pointsOf (v :: r)

/-- The code points of a text. -/
def points (t : Utf16) : List CodePoint := pointsOf t.units

/-- The string that a text is, unless half of a pair stands alone. -/
def toString? (t : Utf16) : Option String := (t.points.mapM CodePoint.char?).map String.ofList

/-- A text in which U+FFFD stands for each half. -/
def replaced (t : Utf16) : String :=
  String.ofList (t.points.map fun x => x.char?.getD '\uFFFD')

/-- Quoted text, with halves written by their numbers. -/
def quoted (t : Utf16) : String :=
  let quote := Text.quoteFor t.replaced.toList
  String.ofList (quote :: t.points.flatMap (CodePoint.quotedIn quote) ++ [quote])

theorem toNat_char_cases (c : Char) :
    c.toNat < 0xD800 ∨ 0xE000 ≤ c.toNat ∧ c.toNat < 0x110000 := by
  have h := c.valid
  simp only [UInt32.isValidChar, Nat.isValidChar] at h
  exact h.imp_right fun h => ⟨h.1, h.2⟩

theorem pointsOf_cons_of_not_isHigh {u : UInt16} (h : isHigh u = false) (us : List UInt16) :
    pointsOf (u :: us) = lonePoint u :: pointsOf us := by
  cases us with
  | nil => rfl
  | cons v r => simp [pointsOf, h]

theorem pointsOf_pair {u v : UInt16} (hu : isHigh u = true) (hv : isLow v = true)
    (r : List UInt16) : pointsOf (u :: v :: r) = .char (joined u v) :: pointsOf r := by
  simp [pointsOf, hu, hv]

/-- The units of a character at the start of a text are read as that character. -/
theorem pointsOf_ofChar_append (c : Char) (us : List UInt16) :
    pointsOf (ofChar c ++ us) = .char c :: pointsOf us := by
  have hc := toNat_char_cases c
  unfold ofChar
  split
  · next hn =>
    have hu : (UInt16.ofNat c.toNat).toNat = c.toNat := by
      rw [UInt16.toNat_ofNat']; exact Nat.mod_eq_of_lt hn
    have hhigh : isHigh (.ofNat c.toNat) = false := by
      simp only [isHigh, hu, Bool.and_eq_false_iff, decide_eq_false_iff_not]; omega
    have hlow : isLow (.ofNat c.toNat) = false := by
      simp only [isLow, hu, Bool.and_eq_false_iff, decide_eq_false_iff_not]; omega
    rw [List.singleton_append, pointsOf_cons_of_not_isHigh hhigh]
    simp [lonePoint, hhigh, hlow, hu]
  · next hn =>
    have hh : (UInt16.ofNat (0xD800 + (c.toNat - 0x10000) / 0x400)).toNat =
        0xD800 + (c.toNat - 0x10000) / 0x400 := by
      rw [UInt16.toNat_ofNat']; exact Nat.mod_eq_of_lt (by omega)
    have hl : (UInt16.ofNat (0xDC00 + (c.toNat - 0x10000) % 0x400)).toNat =
        0xDC00 + (c.toNat - 0x10000) % 0x400 := by
      rw [UInt16.toNat_ofNat']; exact Nat.mod_eq_of_lt (by omega)
    have hhigh : isHigh (.ofNat (0xD800 + (c.toNat - 0x10000) / 0x400)) = true := by
      simp only [isHigh, hh, Bool.and_eq_true, decide_eq_true_eq]; omega
    have hlow : isLow (.ofNat (0xDC00 + (c.toNat - 0x10000) % 0x400)) = true := by
      simp only [isLow, hl, Bool.and_eq_true, decide_eq_true_eq]; omega
    have hjoined : joined (.ofNat (0xD800 + (c.toNat - 0x10000) / 0x400))
        (.ofNat (0xDC00 + (c.toNat - 0x10000) % 0x400)) = c := by
      unfold joined
      rw [hh, hl]
      have : 0x10000 + (0xD800 + (c.toNat - 0x10000) / 0x400 - 0xD800) * 0x400 +
          (0xDC00 + (c.toNat - 0x10000) % 0x400 - 0xDC00) = c.toNat := by omega
      rw [this, Char.ofNat_toNat]
    rw [List.cons_append, List.singleton_append, pointsOf_pair hhigh hlow, hjoined]

theorem pointsOf_ofChars (cs : List Char) : pointsOf (ofChars cs) = cs.map .char := by
  induction cs with
  | nil => rfl
  | cons c cs ih =>
    have : ofChars (c :: cs) = ofChar c ++ ofChars cs := rfl
    rw [this, pointsOf_ofChar_append, ih, List.map_cons]

@[simp] theorem points_ofString (s : String) : (ofString s).points = s.toList.map .char :=
  pointsOf_ofChars s.toList

/-- A string is got back from its units. -/
@[simp] theorem toString?_ofString (s : String) : (ofString s).toString? = some s := by
  have h (cs : List Char) : (cs.map CodePoint.char).mapM CodePoint.char? = some cs := by
    induction cs with
    | nil => rfl
    | cons c cs ih => simp [List.mapM_cons, CodePoint.char?, ih]
  simp [toString?, h]

@[simp] theorem replaced_ofString (s : String) : (ofString s).replaced = s := by
  have h : (fun x : CodePoint => x.char?.getD '\uFFFD') ∘ CodePoint.char = id := rfl
  simp [replaced, h]

theorem toNat_ofNat_char {n : Nat} (h : n.isValidChar) : (Char.ofNat n).toNat = n := by
  rw [Char.ofNat, dif_pos h]
  rfl

theorem ofChar_joined {u v : UInt16} (hu : isHigh u = true) (hv : isLow v = true) :
    ofChar (joined u v) = [u, v] := by
  simp only [isHigh, isLow, Bool.and_eq_true, decide_eq_true_eq] at hu hv
  have hn : (joined u v).toNat =
      0x10000 + (u.toNat - 0xD800) * 0x400 + (v.toNat - 0xDC00) := by
    unfold joined
    refine toNat_ofNat_char (.inr ⟨?_, ?_⟩) <;> omega
  unfold ofChar
  rw [if_neg (by omega), hn]
  have hh : 0xD800 + (0x10000 + (u.toNat - 0xD800) * 0x400 + (v.toNat - 0xDC00) - 0x10000) / 0x400 =
      u.toNat := by omega
  have hl : 0xDC00 + (0x10000 + (u.toNat - 0xD800) * 0x400 + (v.toNat - 0xDC00) - 0x10000) % 0x400 =
      v.toNat := by omega
  rw [hh, hl, UInt16.ofNat_toNat, UInt16.ofNat_toNat]

theorem ofChar_of_lonePoint {u : UInt16} {c : Char} (h : (lonePoint u).char? = some c) :
    ofChar c = [u] := by
  unfold lonePoint at h
  split at h
  · cases h
  · next hu =>
    cases h
    simp only [isHigh, isLow, Bool.or_eq_true, Bool.and_eq_true, decide_eq_true_eq] at hu
    have hlt := u.toNat_lt
    have hn : (Char.ofNat u.toNat).toNat = u.toNat := by
      apply toNat_ofNat_char
      simp only [Nat.isValidChar]
      omega
    unfold ofChar
    rw [hn, if_pos (by omega), UInt16.ofNat_toNat]

theorem ofChars_of_mapM {us : List UInt16} {cs : List Char}
    (h : (pointsOf us).mapM CodePoint.char? = some cs) : ofChars cs = us := by
  induction us using pointsOf.induct generalizing cs with
  | case1 => cases h; rfl
  | case2 u =>
    simp only [pointsOf, List.mapM_cons, List.mapM_nil, Option.bind_eq_bind,
      Option.bind_eq_some_iff, Option.pure_def, Option.some.injEq] at h
    obtain ⟨c, hc, _, rfl, rfl⟩ := h
    simpa [ofChars] using ofChar_of_lonePoint hc
  | case3 u v r huv ih =>
    rw [Bool.and_eq_true] at huv
    rw [pointsOf_pair huv.1 huv.2] at h
    simp only [List.mapM_cons, Option.bind_eq_bind, Option.bind_eq_some_iff, Option.pure_def,
      Option.some.injEq] at h
    obtain ⟨c, hc, cs', hcs, rfl⟩ := h
    obtain rfl : joined u v = c := Option.some.inj hc
    have : ofChars (joined u v :: cs') = ofChar (joined u v) ++ ofChars cs' := rfl
    rw [this, ofChar_joined huv.1 huv.2, ih hcs]
    rfl
  | case4 u v r huv ih =>
    rw [pointsOf, if_neg huv] at h
    simp only [List.mapM_cons, Option.bind_eq_bind, Option.bind_eq_some_iff, Option.pure_def,
      Option.some.injEq] at h
    obtain ⟨c, hc, cs', hcs, rfl⟩ := h
    have : ofChars (c :: cs') = ofChar c ++ ofChars cs' := rfl
    rw [this, ofChar_of_lonePoint hc, ih hcs]
    rfl

/-- A text is the string that it is said to be. -/
theorem toString?_eq_some_iff {t : Utf16} {s : String} :
    t.toString? = some s ↔ t = ofString s := by
  constructor
  · intro h
    obtain ⟨cs, hcs, rfl⟩ := Option.map_eq_some_iff.1 h
    have := ofChars_of_mapM hcs
    cases t
    simp only [ofString, String.toList_ofList, mk.injEq]
    exact this.symm
  · rintro rfl
    simp

theorem ofString_injective {s s' : String} (h : ofString s = ofString s') : s = s' := by
  have := congrArg toString? h
  simpa using this

@[simp] theorem ofString_beq (s s' : String) : (ofString s == ofString s') = (s == s') := by
  rw [Bool.eq_iff_iff, beq_iff_eq, beq_iff_eq]
  exact ⟨ofString_injective, congrArg ofString⟩

theorem ne_ofString_of_toString?_eq_none {t : Utf16} (h : t.toString? = none) (s : String) :
    t ≠ ofString s := by
  rintro rfl
  simp at h

end Utf16

example : (Utf16.ofString "a😀").units = [0x61, 0xD83D, 0xDE00] := by decide +kernel

example : (Utf16.mk [0x61, 0xD83D]).toString? = none ∧
    (Utf16.mk [0x61, 0xD83D]).quoted = "'a\\ud83d'" := by decide +kernel

end ContractInterface

import ContractInterface.Text.Numeral
import Mathlib.Algebra.Group.Nat.Defs
import Mathlib.Tactic.IntervalCases

/-! Numbers of decimal digits. Written without leading zeros, a number takes no more digits than it
was read from. -/
namespace ContractInterface.Text

theorem asciiNumber_eq (cs : List Char) : asciiNumber cs = Nat.ofDigitChars 10 cs 0 :=
  Nat.ofDigitChars_eq_foldl.symm

@[simp] theorem asciiNumber_toDigits (n : Nat) : asciiNumber (Nat.toDigits 10 n) = n := by
  rw [asciiNumber_eq, Nat.ofDigitChars_ten_toDigits]

theorem toNat_sub_lt_of_isDigit {c : Char} (h : c.isDigit = true) :
    c.toNat - '0'.toNat < 10 := by
  obtain ⟨-, hle⟩ := Char.isDigit_iff_toNat.mp h
  change c.toNat ≤ 57 at hle
  change c.toNat - 48 < 10
  omega

theorem asciiNumber_lt {cs : List Char} (h : ∀ c ∈ cs, c.isDigit = true) :
    asciiNumber cs < 10 ^ cs.length := by
  rw [asciiNumber_eq]
  induction cs with
  | nil => simp
  | cons c cs ih =>
    rw [Nat.ofDigitChars_cons, Nat.ofDigitChars_eq_ofDigitChars_zero, List.length_cons,
      Nat.pow_succ]
    have hc := toNat_sub_lt_of_isDigit (h c (by simp))
    have hcs := ih (fun d hd => h d (by simp [hd]))
    have hmul : 10 ^ cs.length * (c.toNat - '0'.toNat) ≤ 10 ^ cs.length * 9 :=
      Nat.mul_le_mul_left _ (by omega)
    rw [Nat.mul_zero, Nat.zero_add]
    omega

/-- Leading zeros are all that is lost when a number is written again. -/
theorem length_toDigits_asciiNumber_le {cs : List Char} (h : ∀ c ∈ cs, c.isDigit = true)
    (hne : cs ≠ []) : (Nat.toDigits 10 (asciiNumber cs)).length ≤ cs.length :=
  (Nat.length_toDigits_le_iff (by decide) (List.length_pos_iff.mpr hne)).mpr (asciiNumber_lt h)

theorem digitChar_of_isDigit {c : Char} (h : c.isDigit = true) :
    Nat.digitChar (c.toNat - '0'.toNat) = c := by
  obtain ⟨hge, hle⟩ := Char.isDigit_iff_toNat.mp h
  change 48 ≤ c.toNat at hge
  change c.toNat ≤ 57 at hle
  have hc := Char.ofNat_toNat c
  generalize c.toNat = n at hge hle hc
  subst hc
  interval_cases n <;> rfl

theorem toDigits_of_isDigit {c : Char} (h : c.isDigit = true) :
    Nat.toDigits 10 (c.toNat - '0'.toNat) = [c] := by
  rw [Nat.toDigits_of_lt_base (toNat_sub_lt_of_isDigit h), digitChar_of_isDigit h]

/-- Digits that are read behind a number that is not zero are written behind it. -/
theorem toDigits_ofDigitChars {cs : List Char} (h : ∀ c ∈ cs, c.isDigit = true) {n : Nat}
    (hn : 0 < n) : Nat.toDigits 10 (Nat.ofDigitChars 10 cs n) = Nat.toDigits 10 n ++ cs := by
  induction cs generalizing n with
  | nil => simp
  | cons c cs ih =>
    have hc : c.isDigit = true := h c (by simp)
    have hwritten : Nat.toDigits 10 n ++ [c] =
        Nat.toDigits 10 (10 * n + (c.toNat - '0'.toNat)) := by
      rw [← Nat.toDigits_append_toDigits (by decide) hn (toNat_sub_lt_of_isDigit hc),
        toDigits_of_isDigit hc]
    rw [Nat.ofDigitChars_cons, ih (fun d hd => h d (by simp [hd])) (by omega), ← hwritten,
      List.append_assoc, List.singleton_append]

/-- Digits without a leading zero are those in which their number is written. -/
theorem toDigits_asciiNumber {cs : List Char} (h : ∀ c ∈ cs, c.isDigit = true) (hne : cs ≠ [])
    (hzero : cs.head? ≠ some '0') : Nat.toDigits 10 (asciiNumber cs) = cs := by
  cases cs with
  | nil => exact absurd rfl hne
  | cons c cs =>
    have hc : c.isDigit = true := h c (by simp)
    have hpos : 0 < c.toNat - '0'.toNat := by
      rw [Nat.pos_iff_ne_zero]
      intro h0
      have hdigits := toDigits_of_isDigit hc
      rw [h0, Nat.toDigits_zero, List.singleton_inj] at hdigits
      exact hzero (by rw [← hdigits]; rfl)
    rw [asciiNumber_eq, Nat.ofDigitChars_cons, Nat.mul_zero, Nat.zero_add,
      toDigits_ofDigitChars (fun d hd => h d (by simp [hd])) hpos, toDigits_of_isDigit hc,
      List.singleton_append]

end ContractInterface.Text

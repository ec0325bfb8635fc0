import ContractInterface.Hex
import Mathlib.Algebra.Group.Nat.Defs

/-! Numbers in base 16. What is written with digits is read from them again, whether the digits
stand alone or in pairs that each make a byte. -/
namespace ContractInterface

namespace Text

theorem hexDigits_one {n : Nat} (h : n < 16) : hexDigits 1 n = [Nat.digitChar n] := by
  rw [hexDigits, Nat.toDigits_of_lt_base h]
  rfl

/-- The last digit is the remainder, and those in front of it write the rest. -/
theorem hexDigits_succ {width : Nat} (hwidth : 0 < width) (n : Nat) :
    hexDigits (width + 1) n = hexDigits width (n / 16) ++ [Nat.digitChar (n % 16)] := by
  rcases Nat.lt_or_ge n 16 with hn | hn
  · obtain ⟨k, rfl⟩ : ∃ k, width = k + 1 := ⟨width - 1, by omega⟩
    rw [hexDigits, hexDigits, Nat.toDigits_of_lt_base hn, Nat.div_eq_of_lt hn,
      Nat.mod_eq_of_lt hn, Nat.toDigits_zero]
    simp [List.replicate_succ']
  · have hlast := Nat.toDigits_append_toDigits (b := 16) (d := n % 16) (n := n / 16) (by decide)
      (by omega) (by omega)
    rw [Nat.div_add_mod, Nat.toDigits_of_lt_base (Nat.mod_lt n (by decide))] at hlast
    rw [hexDigits, hexDigits, ← hlast]
    simp

theorem hexValue?_digitChar : ∀ n < 16, Json.Reader.hexValue? (Nat.digitChar n) = some n := by
  decide

theorem digitChar_ne_quote : ∀ n < 16, Nat.digitChar n ≠ '"' ∧ Nat.digitChar n ≠ '\\' := by
  decide

theorem length_hexDigits {width n : Nat} (hwidth : 0 < width) (h : n < 16 ^ width) :
    (hexDigits width n).length = width := by
  have hle := (Nat.length_toDigits_le_iff (by decide) hwidth).mpr h
  rw [hexDigits, List.length_append, List.length_replicate]
  omega

theorem mem_hexDigits {width n : Nat} (hwidth : 0 < width) (h : n < 16 ^ width) {c : Char}
    (hc : c ∈ hexDigits width n) : ∃ d < 16, c = Nat.digitChar d := by
  induction width generalizing n with
  | zero => omega
  | succ width ih =>
    rcases Nat.eq_zero_or_pos width with rfl | hpos
    · have hn : n < 16 := by simpa using h
      rw [hexDigits_one hn, List.mem_singleton] at hc
      exact ⟨n, hn, hc⟩
    · rw [hexDigits_succ hpos, List.mem_append, List.mem_singleton] at hc
      rcases hc with hc | hc
      · refine ih hpos ?_ hc
        rw [Nat.pow_succ] at h
        omega
      · exact ⟨n % 16, Nat.mod_lt n (by decide), hc⟩

/-- What is written in base 16 is read in it, leading zeros included. -/
theorem hexNumber?_hexDigits {width n : Nat} (hwidth : 0 < width) (h : n < 16 ^ width) :
    Json.Reader.hexNumber? (hexDigits width n) = some n := by
  induction width generalizing n with
  | zero => omega
  | succ width ih =>
    rcases Nat.eq_zero_or_pos width with rfl | hpos
    · have hn : n < 16 := by simpa using h
      rw [hexDigits_one hn, Json.Reader.hexNumber?, List.foldlM_cons, hexValue?_digitChar n hn]
      simp
    · have hrest : n / 16 < 16 ^ width := by
        rw [Nat.pow_succ] at h
        omega
      have hlast := hexValue?_digitChar (n % 16) (Nat.mod_lt n (by decide))
      have hfront := ih hpos hrest
      rw [Json.Reader.hexNumber?] at hfront
      rw [hexDigits_succ hpos, Json.Reader.hexNumber?, List.foldlM_append, hfront,
        Option.bind_eq_bind, Option.bind_some, List.foldlM_cons, hlast]
      simp [Nat.div_add_mod]

end Text

namespace Hex
open Text

theorem byteDigits_eq (b : UInt8) :
    byteDigits b = [Nat.digitChar (b.toNat / 16), Nat.digitChar (b.toNat % 16)] := by
  have hb : b.toNat / 16 < 16 := by
    have := b.toNat_lt
    omega
  rw [byteDigits, hexDigits_succ Nat.one_pos, hexDigits_one hb]
  rfl

/-- A digit is no blank, and no part of the marker but its zero. -/
theorem digitChar_ne : ∀ n < 16, isBlank (Nat.digitChar n) = false ∧ Nat.digitChar n ≠ 'x' := by
  decide

/-- No blanks stand in what is encoded. -/
theorem not_isBlank_of_mem_encode {bytes : List UInt8} {c : Char}
    (h : c ∈ (encode bytes).toList) : isBlank c = false := by
  simp only [encode, String.toList_ofList, List.mem_cons, List.mem_flatMap] at h
  rcases h with rfl | rfl | ⟨b, -, hc⟩
  · decide
  · decide
  · rw [byteDigits_eq] at hc
    simp only [List.mem_cons, List.not_mem_nil, or_false] at hc
    rcases hc with rfl | rfl
    · have := b.toNat_lt
      exact (digitChar_ne _ (by omega)).1
    · exact (digitChar_ne _ (Nat.mod_lt _ (by decide))).1

theorem decode?_flatMap_byteDigits (bytes : List UInt8) :
    decode? (bytes.flatMap byteDigits) = some bytes := by
  induction bytes with
  | nil => rfl
  | cons b bytes ih =>
    have hb : b.toNat / 16 < 16 := by
      have := b.toNat_lt
      omega
    have hmod : b.toNat % 16 < 16 := Nat.mod_lt _ (by decide)
    rw [List.flatMap_cons, byteDigits_eq, List.cons_append, List.cons_append, List.nil_append,
      decode?, if_neg (by simp [(digitChar_ne _ hb).1]), hexValue?_digitChar _ hb,
      hexValue?_digitChar _ hmod, ih]
    simp only [Option.bind_eq_bind, Option.bind_some, Nat.div_add_mod, UInt8.ofNat_toNat]

theorem dropMarker_flatMap_byteDigits (bytes : List UInt8) :
    dropMarker (bytes.flatMap byteDigits) = bytes.flatMap byteDigits := by
  cases bytes with
  | nil => rfl
  | cons b bytes =>
    have hx := (digitChar_ne (b.toNat % 16) (Nat.mod_lt _ (by decide))).2
    rw [List.flatMap_cons, byteDigits_eq, List.cons_append, List.cons_append, List.nil_append,
      dropMarker]
    rintro r h
    exact absurd (List.cons.inj (List.cons.inj h).2).1 hx

/-- Bytes are got back from their digits, with the marker in front of them and without. -/
theorem decode?_digits (bytes : List UInt8) :
    decode? (dropMarker (encode bytes).toList) = some bytes ∧
      decode? (dropMarker (bytes.flatMap byteDigits)) = some bytes := by
  rw [encode, String.toList_ofList, dropMarker_flatMap_byteDigits]
  exact ⟨decode?_flatMap_byteDigits bytes, decode?_flatMap_byteDigits bytes⟩

end Hex

end ContractInterface

/-! Double-precision numbers and their reading from decimals. A finite number is held as sign,
significand and power of two, so that rounding is exact integer arithmetic. -/
namespace ContractInterface

/-- A double: `finite s m q` is `m · 2^q` with the sign of `s`. A significand has at most 53
bits, and has exactly that many unless the exponent is the least, -1074. -/
inductive Binary64
  | nan
  | infinite (negative : Bool)
  | finite (negative : Bool) (significand : Nat) (exponent : Int)
  deriving DecidableEq

namespace Binary64

/-- The least exponent, of subnormal numbers and of the smallest normal ones. -/
def minExponent : Int := -1074

/-- The exponent of the largest finite numbers. -/
def maxExponent : Int := 971

def zero (negative : Bool) : Binary64 := .finite negative 0 minExponent

/-- Both zeros, and nothing else. -/
def isZero : Binary64 → Bool
  | .finite _ 0 _ => true
  | _ => false

/-- A power of a base, or one if the exponent is negative: `base^e` is the quotient of the powers
for `e` and for `-e`. -/
def power (base : Nat) (e : Int) : Nat := Nat.pow base e.toNat

/-- The quotient rounded to the nearest integer, a tie to the even one. -/
def roundQuotient (num den : Nat) : Nat :=
  let q := num / den
  let r := num % den
  if den < 2 * r || (2 * r = den && q % 2 = 1) then q + 1 else q

/-- The exponent `l` with `2^l ≤ num / den < 2^(l+1)`, for positive arguments. -/
def binaryMagnitude (num den : Nat) : Int :=
  let l : Int := (num.log2 : Int) - den.log2
  if num * power 2 (-l) < den * power 2 l then l - 1 else l

/-- The double nearest to a positive quotient, a tie to the even significand. -/
def ofQuotient (negative : Bool) (num den : Nat) : Binary64 :=
  let q := max (binaryMagnitude num den - 52) minExponent
  let m := roundQuotient (num * power 2 (-q)) (den * power 2 q)
  let (m, q) := if m = power 2 53 then (power 2 52, q + 1) else (m, q)
  if maxExponent < q then .infinite negative else .finite negative m q

/-- The double nearest to `n · 10^e`. Decimals far outside the range are settled by their
magnitude alone, so the exponent may be of any size. -/
def ofDecimal (negative : Bool) (n : Nat) (e : Int) : Binary64 :=
  let magnitude : Int := (Nat.toDigits 10 n).length + e
  if n = 0 || magnitude < -330 then zero negative
  else if 310 < magnitude then .infinite negative
  else ofQuotient negative (n * power 10 e) (power 10 (-e))

example : ofDecimal false 1 400 = .infinite false := by decide +kernel

example : ofDecimal true 1 (-999) = zero true := by decide +kernel

example : ofDecimal false 15 (-1) = .finite false (3 * power 2 51) (-52) := by decide +kernel

end Binary64

end ContractInterface

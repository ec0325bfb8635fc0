import ContractInterface.Decimal.Binary64

/-! Whole numbers in the notations of floating point, with a given number of digits. -/
namespace ContractInterface.Decimal

/-- The whole number nearest to `n` that is a double, if it does not exceed them all. -/
def nearestDouble? (n : Nat) : Option Nat :=
  if n = 0 then some 0
  else
    match Binary64.ofQuotient false n 1 with
    | .finite _ m q => some (m * Binary64.power 2 q / Binary64.power 2 (-q))
    | _ => none

/-- The first digits of a number, rounded to the nearest, a tie to the even digit, with the
power of ten that the first of them counts. Short numbers get zeros at the end. -/
def leadingDigits (count n : Nat) : List Char × Nat :=
  let ds := Nat.toDigits 10 n
  if ds.length ≤ count then (ds ++ List.replicate (count - ds.length) '0', ds.length - 1)
  else
    let dropped := ds.length - count
    let rounded := Nat.toDigits 10 (Binary64.roundQuotient n (Binary64.power 10 dropped))
    (rounded.take count, rounded.length + dropped - 1)

/-- The digits behind a point. Without digits the point stands only where it is kept. -/
def fraction (keepPoint : Bool) (ds : List Char) : List Char :=
  if ds.isEmpty && !keepPoint then [] else '.' :: ds

/-- The mark of a power of ten. It has two digits at least. -/
def exponentMark (e : Nat) : List Char :=
  'e' :: '+' :: ((if e < 10 then ['0'] else []) ++ Nat.toDigits 10 e)

/-- All digits in front of the point and as many places behind it as asked for. -/
def fixed (keepPoint : Bool) (places n : Nat) : List Char :=
  Nat.toDigits 10 n ++ fraction keepPoint (List.replicate places '0')

/-- One digit in front of the point, the places behind it, and a power of ten. -/
def scientific (keepPoint : Bool) (places n : Nat) : List Char :=
  let (ds, e) := leadingDigits (places + 1) n
  ds.take 1 ++ fraction keepPoint (ds.drop 1) ++ exponentMark e

def dropZerosEnd (ds : List Char) : List Char := (ds.reverse.dropWhile (· = '0')).reverse

/-- At most the given number of digits, without a power of ten if they reach the ones. Zeros at
the end stand only where the point is kept. -/
def general (keepPoint : Bool) (count n : Nat) : List Char :=
  let count := max count 1
  let (ds, e) := leadingDigits count n
  let behind (ds : List Char) := fraction keepPoint (if keepPoint then ds else dropZerosEnd ds)
  if e < count then ds.take (e + 1) ++ behind (ds.drop (e + 1))
  else ds.take 1 ++ behind (ds.drop 1) ++ exponentMark e

example : fixed false 2 40 = "40.00".toList ∧ scientific false 1 96 = "9.6e+01".toList := by
  decide +kernel

example : scientific false 0 95 = "1e+02".toList ∧ scientific true 0 85 = "8.e+01".toList := by
  decide +kernel

example : general false 3 1230 = "1.23e+03".toList ∧ general true 3 40 = "40.0".toList := by
  decide +kernel

end ContractInterface.Decimal

import ContractInterface.Decimal.Binary64

/-! The shortest decimal text that reads back as a given double. Among the decimals with the
fewest digits that round to the number, the nearest to it is written. -/
namespace ContractInterface.Binary64

/-- Digits and the place of the decimal point: `⟨[d₁, d₂, …], k⟩` is `0.d₁d₂… · 10^k`. -/
structure Digits where
  digits : List Char
  point : Int

/-- A positive double as a quotient of four times its significand, together with the two
halfway points to its neighbours. Below a power of two the gap is half as wide. -/
structure Interval where
  low : Nat
  value : Nat
  high : Nat
  /-- A quarter of the number's last place is `unitNum / unitDen`. -/
  unitNum : Nat
  unitDen : Nat
  closed : Bool

def interval (m : Nat) (q : Int) : Interval where
  low := if m = power 2 52 && minExponent < q then 4 * m - 1 else 4 * m - 2
  value := 4 * m
  high := 4 * m + 2
  unitNum := power 2 q
  unitDen := 4 * power 2 (-q)
  closed := m % 2 = 0

/-- The `k` with `10^(k-1) ≤ num / den < 10^k`, for positive arguments. -/
def decimalMagnitude (num den : Nat) : Int :=
  if den ≤ num then (Nat.toDigits 10 (num / den)).length
  else
    let l := (Nat.toDigits 10 (den / num)).length
    if den = num * power 10 (l - 1) then 2 - l else 1 - l

/-- The best multiple of `10^p` that rounds to the number: of its two neighbours on that grid,
the nearer one inside the interval, and on a tie the even one. -/
def onGrid? (i : Interval) (p : Int) : Option Nat :=
  let unit := i.unitDen * power 10 p
  let scaled (x : Nat) := x * i.unitNum * power 10 (-p)
  let below := scaled i.value / unit
  let inside (c : Nat) :=
    if i.closed then scaled i.low ≤ c * unit && c * unit ≤ scaled i.high
    else scaled i.low < c * unit && c * unit < scaled i.high
  let gap := 2 * (scaled i.value % unit)
  match inside below && below ≠ 0, inside (below + 1) with
  | true, true =>
    if gap < unit || (gap = unit && below % 2 = 0) then some below else some (below + 1)
  | true, false => some below
  | false, true => some (below + 1)
  | false, false => none

/-- The digits of `c · 10^p` without trailing zeros. -/
def digitsOf (c : Nat) (p : Int) : Digits :=
  let ds := Nat.toDigits 10 c
  ⟨(ds.reverse.dropWhile (· = '0')).reverse, p + ds.length⟩

/-- The shortest digits of a positive double. Seventeen always suffice. -/
def shortest (m : Nat) (q : Int) : Digits :=
  let i := interval m q
  let k := decimalMagnitude (i.value * i.unitNum) i.unitDen
  let found := (List.range 17).findSome? fun n =>
    let p := k - ((n + 1 : Nat) : Int)
    (onGrid? i p).map fun c => digitsOf c p
  found.getD ⟨['0'], 0⟩

/-- How a format spells the numbers that have no digits. -/
structure Spelling where
  nan : String
  infinity : String

/-- Positional notation with at least one digit on either side of the point is used from
`10^-4` up to `10^16`; outside, one digit, the others after a point, and an exponent of at
least two digits with its sign. -/
def layout (d : Digits) : List Char :=
  if -4 < d.point && d.point ≤ 16 then
    if d.point ≤ 0 then '0' :: '.' :: (List.replicate (-d.point).toNat '0' ++ d.digits)
    else
      let whole := d.digits.take d.point.toNat
      let fraction := d.digits.drop d.point.toNat
      whole ++ List.replicate (d.point.toNat - whole.length) '0' ++
        '.' :: (if fraction.isEmpty then ['0'] else fraction)
  else
    let e := d.point - 1
    let ds := Nat.toDigits 10 e.natAbs
    d.digits.take 1 ++ (if d.digits.length ≤ 1 then [] else '.' :: d.digits.drop 1) ++
      'e' :: (if e < 0 then '-' else '+') ::
        (List.replicate (2 - ds.length) '0' ++ ds)

def text (spelling : Spelling) : Binary64 → String
  | .nan => spelling.nan
  | .infinite negative => (if negative then "-" else "") ++ spelling.infinity
  | .finite negative m q =>
    (if negative then "-" else "") ++
      if m = 0 then "0.0" else String.ofList (layout (shortest m q))

example : text ⟨"nan", "inf"⟩ (ofDecimal false 15 (-1)) = "1.5" := by decide +kernel

example : text ⟨"nan", "inf"⟩ (ofDecimal false 1 (-5)) = "1e-05" := by decide +kernel

example : text ⟨"nan", "inf"⟩ (ofDecimal true 1 16) = "-1e+16" := by decide +kernel

example : text ⟨"nan", "inf"⟩ (ofDecimal false 1 5) = "100000.0" := by decide +kernel

end ContractInterface.Binary64

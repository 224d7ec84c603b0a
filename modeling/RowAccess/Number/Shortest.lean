import RowAccess.Number.Binary64

/-!
# Shortest decimal digits

The text of a double precision number shows the fewest decimal digits that still identify it: of
all decimal numbers that round to the value, one on the coarsest decimal grid, and there the one
nearest to the value. The real numbers that round to `m · 2 ^ e` form an interval around it, with
its ends included if `m` is even; if any point of a grid lies in the interval, then so does one of
the two grid points next to the value.
-/

namespace RowAccess.Binary64

/-- A decimal number `digits · 10 ^ scale`. -/
structure Decimal where
  digits : Nat
  scale : Int
  deriving DecidableEq, Repr

/-- The numbers that round to a positive value, over a common denominator: the value itself, the
ends of the interval, and whether the ends belong to it. -/
structure Interval where
  low : Nat
  value : Nat
  high : Nat
  den : Nat
  closed : Bool

/-- The interval of a positive canonical value. Below a power of two the neighbour is half as
far away as above it. -/
def interval (x : Binary64) : Interval :=
  let m := x.significand
  let low := if m = twoTo 52 ∧ minExponent < x.exponent then 4 * m - 1 else 4 * m - 2
  let scaled (n : Nat) : Nat := (scaleRatio n 4 x.exponent).1
  ⟨scaled low, scaled (4 * m), scaled (4 * m + 2), (scaleRatio 1 4 x.exponent).2, m % 2 = 0⟩

/-- Whether `num / den` lies in the interval, for the interval's own denominator. -/
def Interval.holds (i : Interval) (num den : Nat) : Bool :=
  let low := i.low * den
  let high := i.high * den
  let point := num * i.den
  if i.closed then low ≤ point && point ≤ high else low < point && point < high

/-- The best point of the interval on the grid of multiples of `10 ^ scale`, if there is one. -/
def Interval.onGrid? (i : Interval) (scale : Int) : Option Nat :=
  let (stepNum, stepDen) := if 0 ≤ scale then (tenTo scale.toNat, 1) else (1, tenTo (-scale).toNat)
  let num := i.value * stepDen
  let den := i.den * stepNum
  let below := num / den
  let above := below + 1
  let inside (n : Nat) : Bool := i.holds (n * stepNum) stepDen
  let distanceBelow := num - below * den
  let distanceAbove := above * den - num
  match inside below, inside above with
  | true, true =>
    if distanceBelow < distanceAbove || (distanceBelow == distanceAbove && below % 2 == 0) then
      some below
    else some above
  | true, false => some below
  | false, true => some above
  | false, false => none

/-- Search grids from coarse to fine. -/
def Interval.search (i : Interval) : (attempts : Nat) → (scale : Int) → Option Decimal
  | 0, _ => none
  | attempts + 1, scale =>
    match i.onGrid? scale with
    | some digits => some ⟨digits, scale⟩
    | none => i.search attempts (scale - 1)

/-- A decimal scale that is too coarse for the value, and less than three grids above it. -/
def coarseScale (x : Binary64) : Int :=
  ((x.significand.log2 : Int) + x.exponent) * 30103 / 100000 + 2

/-- The shortest decimal number that rounds to the magnitude of a value. A value needs at most
17 digits, so the search ends; zero is `0 · 10 ^ 0`. -/
def shortest (x : Binary64) : Decimal :=
  if x.significand = 0 then ⟨0, 0⟩
  else (x.interval.search 24 x.coarseScale).getD ⟨0, 0⟩

/-- Where positional notation begins and ends. -/
structure Layout where
  /-- The least decimal exponent written positionally. -/
  leastPlain : Int
  /-- The least decimal exponent above those written positionally. -/
  firstScientific : Int

/-- The text of a value: positional with at least one decimal place, or one digit, an optional
fraction and a signed exponent. -/
def render (layout : Layout) (x : Binary64) : String :=
  let d := x.shortest
  let digits := Nat.toDigits 10 d.digits
  let exponent : Int := digits.length - 1 + d.scale
  let sign := if x.negative then "-" else ""
  let body : List Char :=
    if layout.leastPlain ≤ exponent && exponent < layout.firstScientific then
      if 0 ≤ d.scale then digits ++ List.replicate d.scale.toNat '0' ++ ['.', '0']
      else if 0 ≤ exponent then
        digits.take (exponent.toNat + 1) ++ '.' :: digits.drop (exponent.toNat + 1)
      else '0' :: '.' :: List.replicate ((-exponent).toNat - 1) '0' ++ digits
    else
      let fraction := digits.drop 1
      digits.take 1 ++ (if fraction.isEmpty then [] else '.' :: fraction) ++
        'e' :: (if exponent < 0 then '-' else '+') :: Nat.toDigits 10 exponent.natAbs
  sign ++ String.ofList body

end RowAccess.Binary64

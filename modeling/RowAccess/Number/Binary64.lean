/-!
# Double precision numbers

Stored numbers that are not 64-bit integers are finite binary64 values. They are kept decoded, as
a sign, a significand and a power of two, so that order and rounding are arithmetic on integers.
Every canonical value is a whole multiple of `2⁻¹⁰⁷⁴`; counting those multiples (`units`) turns
comparison into comparison of integers, and the two zeros into one.

All arithmetic goes through one rounding function: the exact quotient of two natural numbers is
rounded to the nearest representable value, a tie to the even significand.
-/

namespace RowAccess

/-- The finite number `± significand · 2 ^ exponent`. The values built here are canonical: the
significand is below `2 ^ 53`, the exponent at least `-1074`, and the exponent is above `-1074`
only if the significand is at least `2 ^ 52`. -/
structure Binary64 where
  negative : Bool
  significand : Nat
  exponent : Int
  deriving DecidableEq, Repr

/-- A double precision number or one of the values that are no number of the real line. -/
inductive Extended where
  | nan
  | infinite (negative : Bool)
  | finite (value : Binary64)
  deriving DecidableEq, Repr

def twoTo (k : Nat) : Nat := Nat.pow 2 k

def tenTo (k : Nat) : Nat := Nat.pow 10 k

/-- The quotient of two natural numbers rounded to a whole number, a tie to the even one. -/
def roundDiv (num den : Nat) : Nat :=
  let q := num / den
  let r := num % den
  if den < 2 * r || (den == 2 * r && q % 2 == 1) then q + 1 else q

namespace Binary64

def minExponent : Int := -1074

def maxExponent : Int := 971

def zero (negative : Bool) : Binary64 := ⟨negative, 0, minExponent⟩

/-- Multiply the quotient `num / den` by a power of two, as a quotient. -/
def scaleRatio (num den : Nat) (power : Int) : Nat × Nat :=
  if 0 ≤ power then (num * twoTo power.toNat, den) else (num, den * twoTo (-power).toNat)

/-- The value nearest to `± num / den`, with an exponent that may exceed `maxExponent`. The
divisor is positive. -/
def rounded (negative : Bool) (num den : Nat) : Binary64 :=
  if num = 0 then zero negative
  else
    let guess : Int := (num.log2 : Int) - den.log2 - 53
    let (n, d) := scaleRatio num den (-guess)
    let exponent := max minExponent (if d * twoTo 53 ≤ n then guess + 1 else guess)
    let (n, d) := scaleRatio num den (-exponent)
    let significand := roundDiv n d
    if significand = twoTo 53 then ⟨negative, twoTo 52, exponent + 1⟩
    else ⟨negative, significand, exponent⟩

/-- The value nearest to `± num / den`, if it does not round to infinity. -/
def nearest? (negative : Bool) (num den : Nat) : Option Binary64 :=
  let value := rounded negative num den
  if value.exponent ≤ maxExponent then some value else none

def ofInt (n : Int) : Binary64 := rounded (n < 0) n.natAbs 1

/-- The magnitude as a quotient of natural numbers. -/
def ratio (x : Binary64) : Nat × Nat := scaleRatio x.significand 1 x.exponent

/-- How many times `2⁻¹⁰⁷⁴` the value is. -/
def units (x : Binary64) : Int :=
  let magnitude := x.significand * twoTo (x.exponent - minExponent).toNat
  if x.negative then -(magnitude : Int) else magnitude

/-- The order of two values; the zeros of both signs are equal. -/
def order (x y : Binary64) : Ordering := compare x.units y.units

def same (x y : Binary64) : Bool := x.units == y.units

def mul? (x y : Binary64) : Option Binary64 :=
  let (a, b) := x.ratio
  let (c, d) := y.ratio
  nearest? (x.negative != y.negative) (a * c) (b * d)

/-- The rounded quotient, if it is finite and the divisor is not zero. -/
def div? (x y : Binary64) : Option Binary64 :=
  let (a, b) := x.ratio
  let (c, d) := y.ratio
  if c = 0 then none else nearest? (x.negative != y.negative) (a * d) (b * c)

def withSign (negative : Bool) (x : Binary64) : Binary64 := { x with negative }

end Binary64

namespace Extended

/-- The order of a finite number and an extended one; nothing is comparable with `nan`. -/
def order? (x : Binary64) : Extended → Option Ordering
  | .nan => none
  | .infinite negative => some (if negative then .gt else .lt)
  | .finite y => some (x.order y)

end Extended

end RowAccess

import RowAccess.Number.Binary64
import RowAccess.Text.Integer

/-!
# Numbers in text

Two readers turn decimal text into double precision numbers. Text that a stored number is compared
with (`readExtended?`) is rounded once, correctly, and may name infinity or `nan`. Numbers in JSON
(`scaleByTen`) are computed in steps: as many leading digits as fit a 64-bit word are taken as a
whole number, which is then multiplied or divided by powers of ten, rounding after each step.
-/

namespace RowAccess.Binary64

/-- The value nearest to `± digits · 10 ^ exponent`, or infinity. Exponents beyond the range of
the type need no exact arithmetic. -/
def ofDecimal (negative : Bool) (digits : Nat) (exponent : Int) : Extended :=
  let magnitude : Int := (Nat.toDigits 10 digits).length + exponent
  if digits = 0 || magnitude < -400 then .finite (zero negative)
  else if 400 < magnitude then .infinite negative
  else
    let value :=
      if 0 ≤ exponent then nearest? negative (digits * tenTo exponent.toNat) 1
      else nearest? negative digits (tenTo (-exponent).toNat)
    match value with
    | some x => .finite x
    | none => .infinite negative

/-- The exponent part of a number: nothing, or a mark, an optional sign and digits. -/
def readExponent? : List Char → Option Int
  | [] => some 0
  | mark :: rest =>
    if mark == 'e' || mark == 'E' then
      match rest with
      | '-' :: digits => (Text.readNat? digits).map fun n ↦ -(n : Int)
      | '+' :: digits => (Text.readNat? digits).map Int.ofNat
      | digits => (Text.readNat? digits).map Int.ofNat
    else none

/-- An unsigned number: a name without regard to case, or digits with an optional point and
exponent, where at least one digit stands before or after the point. -/
def readMagnitude? (negative : Bool) (cs : List Char) : Option Extended :=
  let name := String.ofList (cs.map Char.toLower)
  if name == "nan" then some .nan
  else if name == "inf" || name == "infinity" then some (.infinite negative)
  else
    let whole := cs.takeWhile Text.isDigit
    let rest := cs.dropWhile Text.isDigit
    let (fraction, rest) := match rest with
      | '.' :: more => (more.takeWhile Text.isDigit, more.dropWhile Text.isDigit)
      | rest => ([], rest)
    let digits := whole ++ fraction
    if digits.isEmpty then none
    else (readExponent? rest).map fun exponent ↦
      ofDecimal negative (Text.digitsValue digits) (exponent - fraction.length)

/-- A number in text, with an optional sign. -/
def readExtended? (s : String) : Option Extended :=
  match s.toList with
  | '-' :: cs => readMagnitude? true cs
  | '+' :: cs => readMagnitude? false cs
  | cs => readMagnitude? false cs

/-- The greatest exponent of a power of ten that is a finite value. -/
def maxPowerOfTen : Nat := 308

def powerOfTen (k : Nat) : Binary64 := rounded false (tenTo k) 1

/-- Multiply by a power of ten in rounded steps; none if the result is not finite. Three steps
are enough to reach zero from any whole number of 64 bits. -/
def scaleByTen (x : Binary64) : (steps : Nat) → (exponent : Int) → Option Binary64
  | 0, _ => some x
  | steps + 1, exponent =>
    if exponent.natAbs ≤ maxPowerOfTen then
      if 0 ≤ exponent then x.mul? (powerOfTen exponent.toNat)
      else x.div? (powerOfTen exponent.natAbs)
    else if x.significand = 0 then some x
    else if 0 ≤ exponent then none
    else
      match x.div? (powerOfTen maxPowerOfTen) with
      | some smaller => smaller.scaleByTen steps (exponent + maxPowerOfTen)
      | none => none

/-- The value of a JSON number that is no integer of 64 bits: a whole number below `2 ^ 64`
times a power of ten. -/
def ofScaled? (negative : Bool) (significand : Nat) (exponent : Int) : Option Binary64 :=
  ((ofInt significand).scaleByTen 4 exponent).map (withSign negative)

end RowAccess.Binary64

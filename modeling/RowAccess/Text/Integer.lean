/-!
# Integers in text

Row ids, page windows and version tags are decimal integers of 64 bits. A reader takes an
optional sign and at least one ASCII digit, and nothing else: no white space, no separators. A
number outside the range of its type is not read at all.
-/

namespace RowAccess.Text

def int64Min : Int := -9223372036854775808

def int64Max : Int := 9223372036854775807

/-- An integer that fits 64 bits with a sign. -/
def isInt64 (n : Int) : Bool := int64Min ≤ n && n ≤ int64Max

def nat64Max : Nat := 18446744073709551615

def isDigit (c : Char) : Bool := '0' ≤ c && c ≤ '9'

def digitValue (c : Char) : Nat := c.toNat - '0'.toNat

/-- The number that a row of digits denotes, the most significant one first. -/
def digitsValue (cs : List Char) : Nat := cs.foldl (fun n c ↦ n * 10 + digitValue c) 0

/-- A nonempty row of digits, leading zeros allowed. -/
def readNat? (cs : List Char) : Option Nat :=
  if cs.isEmpty || !cs.all isDigit then none else some (digitsValue cs)

/-- An unsigned integer of 64 bits, a plus sign allowed. -/
def readNat64? (s : String) : Option Nat :=
  let digits := match s.toList with
    | '+' :: cs => cs
    | cs => cs
  (readNat? digits).filter (· ≤ nat64Max)

/-- A signed integer of 64 bits, either sign allowed. -/
def readInt64? (s : String) : Option Int :=
  let value : Option Int := match s.toList with
    | '-' :: cs => (readNat? cs).map fun n ↦ -(n : Int)
    | '+' :: cs => (readNat? cs).map Int.ofNat
    | cs => (readNat? cs).map Int.ofNat
  value.filter isInt64

/-- The decimal text of an integer: a minus sign if negative, no leading zeros. -/
def writeInt (n : Int) : String := toString n

/-- A digit of a base up to sixteen, written with small letters. -/
def hexDigit (n : Nat) : Char :=
  if n < 10 then Char.ofNat ('0'.toNat + n) else Char.ofNat ('a'.toNat + (n - 10))

/-- The value of a hexadecimal digit in either case. -/
def hexValue? (c : Char) : Option Nat :=
  if isDigit c then some (digitValue c)
  else if 'a' ≤ c && c ≤ 'f' then some (c.toNat - 'a'.toNat + 10)
  else if 'A' ≤ c && c ≤ 'F' then some (c.toNat - 'A'.toNat + 10)
  else none

/-- The decimal text of a natural number, filled with zeros up to a width. -/
def writePadded (width n : Nat) : String :=
  let digits := Nat.toDigits 10 n
  String.ofList (List.replicate (width - digits.length) '0' ++ digits)

end RowAccess.Text

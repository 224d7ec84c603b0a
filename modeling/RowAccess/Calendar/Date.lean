import RowAccess.Text.Blank
import RowAccess.Text.Integer

/-!
# Calendar dates

Dates of the proleptic Gregorian calendar, as operands of comparisons and as the first ten
characters of stored dates and times. Two readers differ in where they allow white space:
`parseLoose?`, for operands, allows it around every part, `parse?`, for stored text, only before
a number. Both take a year with a sign and any number of digits, or up to four digits without one.
-/

namespace RowAccess

/-- A date of the proleptic Gregorian calendar. -/
structure Date where
  year : Int
  month : Nat
  day : Nat
  deriving DecidableEq, Repr

namespace Date

/-- Every fourth year is a leap year, except for three centuries out of four. -/
def isLeap (year : Int) : Bool := year % 4 == 0 && (year % 100 != 0 || year % 400 == 0)

def monthLength (year : Int) (month : Nat) : Nat :=
  if month = 2 then (if isLeap year then 29 else 28)
  else if month = 4 ∨ month = 6 ∨ month = 9 ∨ month = 11 then 30
  else 31

def minYear : Int := -262143

def maxYear : Int := 262142

/-- The date of a year, a month and a day, if there is one. -/
def ofParts? (year : Int) (month day : Nat) : Option Date :=
  if minYear ≤ year ∧ year ≤ maxYear ∧ 1 ≤ month ∧ month ≤ 12 ∧ 1 ≤ day ∧
      day ≤ monthLength year month then
    some ⟨year, month, day⟩
  else none

/-- Earlier dates come first. -/
def order (a b : Date) : Ordering :=
  (compare a.year b.year).then ((compare a.month b.month).then (compare a.day b.day))

/-- The text of a year: four digits, or a sign and at least four digits outside of them. -/
def yearText (year : Int) : String :=
  if 0 ≤ year ∧ year ≤ 9999 then Text.writePadded 4 year.toNat
  else (if year < 0 then "-" else "+") ++ Text.writePadded 4 year.natAbs

/-- The text `YYYY-MM-DD`. -/
def render (d : Date) : String :=
  yearText d.year ++ "-" ++ Text.writePadded 2 d.month ++ "-" ++ Text.writePadded 2 d.day

/-- Up to `width` digits at the start of a text, at least one. -/
def takeDigits? (width : Nat) (cs : List Char) : Option (Nat × List Char) :=
  let digits := (cs.take width).takeWhile Text.isDigit
  if digits.isEmpty then none else some (Text.digitsValue digits, cs.drop digits.length)

/-- A year after white space: a sign and any number of digits that fits 64 bits, or up to four
digits. -/
def takeYear? (cs : List Char) : Option (Int × List Char) :=
  let signed (rest : List Char) : Option (Nat × List Char) :=
    (takeDigits? rest.length rest).filter fun (n, _) ↦ n ≤ Text.int64Max
  match Text.dropLeading Text.isBlank cs with
  | '-' :: rest => (signed rest).map fun (n, rest) ↦ (-(n : Int), rest)
  | '+' :: rest => (signed rest).map fun (n, rest) ↦ ((n : Int), rest)
  | rest => (takeDigits? 4 rest).map fun (n, rest) ↦ ((n : Int), rest)

/-- A month or a day after white space. -/
def takeTwo? (cs : List Char) : Option (Nat × List Char) :=
  takeDigits? 2 (Text.dropLeading Text.isBlank cs)

/-- A hyphen, after white space if `loose`. -/
def takeHyphen? (loose : Bool) (cs : List Char) : Option (List Char) :=
  match if loose then Text.dropLeading Text.isBlank cs else cs with
  | '-' :: rest => some rest
  | _ => none

/-- The date that a text holds; white space before hyphens and at the end is allowed if `loose`. -/
def parseWith? (loose : Bool) (cs : List Char) : Option Date := do
  let (year, rest) ← takeYear? cs
  let rest ← takeHyphen? loose rest
  let (month, rest) ← takeTwo? rest
  let rest ← takeHyphen? loose rest
  let (day, rest) ← takeTwo? rest
  let rest := if loose then Text.dropLeading Text.isBlank rest else rest
  if rest.isEmpty then ofParts? year month day else none

/-- The date that a text holds, white space allowed around every part. -/
def parseLoose? (s : String) : Option Date := parseWith? true s.toList

/-- The date that a text holds, white space allowed before the numbers only. -/
def parse? (cs : List Char) : Option Date := parseWith? false cs

/-- The characters of the first octets of a text, if a character ends there. -/
def takeOctets? : List Char → Nat → Option (List Char)
  | _, 0 => some []
  | [], _ + 1 => none
  | c :: cs, octets + 1 =>
    if c.utf8Size ≤ octets + 1 then
      (takeOctets? cs (octets + 1 - c.utf8Size)).map fun rest ↦ c :: rest
    else none

/-- The date at the start of a stored date or time: its first ten octets, or all of it if it is
shorter or no character ends there. -/
def ofStored? (s : String) : Option Date :=
  parse? ((takeOctets? s.toList 10).getD s.toList)

end Date

end RowAccess

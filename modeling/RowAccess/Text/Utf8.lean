/-!
# UTF-8

Octets of a request target are decoded to text in two ways: strictly, where any octet that is no
part of a character makes the whole text invalid, and leniently, where each maximal run of octets
that starts like a character but does not finish one becomes the replacement character U+FFFD.
-/

namespace RowAccess.Text

/-- A continuation octet between two bounds. -/
def isTail (low high : Nat) (b : UInt8) : Bool := low ≤ b.toNat && b.toNat ≤ high

/-- The lead octet of a longer sequence: how many octets follow, its own bits, and the bounds of
the first octet that follows. The bounds rule out long forms, surrogates and code points above
U+10FFFF. -/
def lead? (b : UInt8) : Option (Nat × Nat × Nat × Nat) :=
  let n := b.toNat
  if 0xC2 ≤ n && n ≤ 0xDF then some (1, n - 0xC0, 0x80, 0xBF)
  else if n == 0xE0 then some (2, 0, 0xA0, 0xBF)
  else if n == 0xED then some (2, 0xD, 0x80, 0x9F)
  else if 0xE1 ≤ n && n ≤ 0xEF then some (2, n - 0xE0, 0x80, 0xBF)
  else if n == 0xF0 then some (3, 0, 0x90, 0xBF)
  else if 0xF1 ≤ n && n ≤ 0xF3 then some (3, n - 0xF0, 0x80, 0xBF)
  else if n == 0xF4 then some (3, 4, 0x80, 0x8F)
  else none

/-- Continuation octets, the first one between two bounds: the code point if all are there, and
the octets left over, which on failure start with the first octet that does not belong. -/
def takeTails : (missing code low high : Nat) → List UInt8 → Option Nat × List UInt8
  | 0, code, _, _, rest => (some code, rest)
  | missing + 1, code, low, high, b :: rest =>
    if isTail low high b then takeTails missing (code * 64 + b.toNat % 64) 0x80 0xBF rest
    else (none, b :: rest)
  | _ + 1, _, _, _, [] => (none, [])

/-- One character, or none for a run of octets that finishes no character, and the octets left
over. -/
def takeChar (b : UInt8) (rest : List UInt8) : Option Char × List UInt8 :=
  if b.toNat < 0x80 then (some (Char.ofNat b.toNat), rest)
  else
    match lead? b with
    | none => (none, rest)
    | some (missing, code, low, high) =>
      let (code, rest) := takeTails missing code low high rest
      (code.map Char.ofNat, rest)

/-- The characters of an octet sequence, none for each run that is no character. Each step takes
an octet at least, so the length bounds the steps. -/
def decodeRuns : (steps : Nat) → List UInt8 → List (Option Char)
  | 0, _ => []
  | _ + 1, [] => []
  | steps + 1, b :: rest =>
    let (c, rest) := takeChar b rest
    c :: decodeRuns steps rest

/-- The text of an octet sequence, if it is valid. -/
def decodeStrict? (octets : List UInt8) : Option String :=
  let runs := decodeRuns octets.length octets
  if runs.all Option.isSome then some (String.ofList (runs.filterMap fun c ↦ c)) else none

/-- The text of an octet sequence with replacement characters. -/
def decodeLenient (octets : List UInt8) : String :=
  String.ofList ((decodeRuns octets.length octets).map fun c ↦ c.getD (Char.ofNat 0xFFFD))

end RowAccess.Text

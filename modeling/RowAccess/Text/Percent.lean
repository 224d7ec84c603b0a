import RowAccess.Text.Integer
import RowAccess.Text.Split
import RowAccess.Text.Utf8

/-!
# Percent encoding

Request targets write octets as a percent sign and two hexadecimal digits. A percent sign without
two digits after it stands for itself.
-/

namespace RowAccess.Text

/-- The octets of a percent-encoded sequence. -/
def percentOctets : List UInt8 → List UInt8
  | b :: high :: low :: more =>
    if b.toNat == 0x25 then
      match hexValue? (Char.ofNat high.toNat), hexValue? (Char.ofNat low.toNat) with
      | some h, some l => UInt8.ofNat (h * 16 + l) :: percentOctets more
      | _, _ => b :: percentOctets (high :: low :: more)
    else b :: percentOctets (high :: low :: more)
  | short => short

def octets (cs : List Char) : List UInt8 := (String.ofList cs).toUTF8.toList

/-- The text of a path segment, if its octets are valid. -/
def decodeSegment? (segment : List Char) : Option String :=
  decodeStrict? (percentOctets (octets segment))

/-- The text of a query key or value, where a plus sign is a space. -/
def decodeFormPart (part : List Char) : String :=
  decodeLenient (percentOctets (octets (part.map fun c ↦ if c == '+' then ' ' else c)))

/-- The key and value pairs of a query, in order. Parts without an equals sign have an empty
value; empty parts do not count. -/
def formPairs (query : List Char) : List (String × String) :=
  ((splitOn '&' query).filter fun part ↦ !part.isEmpty).map fun part ↦
    match splitFirst? '=' part with
    | some (key, value) => (decodeFormPart key, decodeFormPart value)
    | none => (decodeFormPart part, "")

end RowAccess.Text

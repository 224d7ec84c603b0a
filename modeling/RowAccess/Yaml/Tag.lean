import RowAccess.Text.Percent

/-!
# YAML tags

A tag names the type of a node. It is a sequence of octets: outside of escapes it is ASCII, and an
escape denotes any octet. The escapes of one character follow each other, and only their leading
bits are looked at, so a tag need not be UTF-8. A zero octet ends the part of a tag it stands in.

Tags of the core schema decide how a scalar is read. A tag that begins with an exclamation mark is
local to its document, if what follows the mark is text.
-/

namespace RowAccess.Yaml

/-- The octets of a tag. -/
abbrev Tag := List UInt8

namespace Tag

/-- The tag that a text spells. -/
def ofText (text : String) : Tag := Text.octets text.toList

/-- The exclamation mark alone. -/
def bare : Tag := [0x21]

/-- What the tags of the core schema have in front of their names. -/
def coreStart : Tag := ofText "tag:yaml.org,2002:"

/-- A tag of the core schema. -/
def core (name : String) : Tag := coreStart ++ ofText name

/-- Whether a tag begins with an exclamation mark. -/
def isMarked (t : Tag) : Bool := t.head? == some 0x21

/-- Whether a tag is local to its document. -/
def isLocal (t : Tag) : Bool := t.isMarked && (Text.decodeStrict? (t.drop 1)).isSome

/-! ## Escapes -/

/-- How many octets follow the first one of a character, by its leading bits. -/
def following? (octet : UInt8) : Option Nat :=
  let n := octet.toNat
  if n < 0x80 then some 0
  else if n / 32 == 6 then some 1
  else if n / 16 == 14 then some 2
  else if n / 8 == 30 then some 3
  else none

/-- The octets of a tag text. Of the character whose escapes are being read, `missing` octets are
still to come. -/
def decode : (missing : Nat) → List Char → Option (List UInt8)
  | 0, [] => some []
  | _ + 1, [] => none
  | missing, '%' :: high :: low :: rest => do
    let octet := UInt8.ofNat ((← Text.hexValue? high) * 16 + (← Text.hexValue? low))
    let missing ←
      if missing = 0 then following? octet
      else if Text.isTail 0x80 0xBF octet then some (missing - 1)
      else none
    return octet :: (← decode missing rest)
  | 0, c :: rest =>
    if c == '%' then none else (decode 0 rest).map fun more ↦ UInt8.ofNat c.toNat :: more
  | _ + 1, _ :: _ => none

/-- The part of a tag that a text spells, up to its first zero octet. -/
def ofEscaped? (text : List Char) : Option Tag :=
  (decode 0 text).map fun octets ↦ octets.takeWhile fun octet ↦ octet != 0

end Tag

end RowAccess.Yaml

/-!
# White space

Words in header values, page windows and query lists are trimmed before they are read. White
space means the Unicode property of that name, not only the ASCII blanks.
-/

namespace RowAccess.Text

/-- The Unicode property White_Space. -/
def isBlank (c : Char) : Bool :=
  let n := c.toNat
  (9 ≤ n && n ≤ 13) || n == 0x20 || n == 0x85 || n == 0xA0 || n == 0x1680 ||
    (0x2000 ≤ n && n ≤ 0x200A) || n == 0x2028 || n == 0x2029 || n == 0x202F || n == 0x205F ||
    n == 0x3000

/-- The text without the members of a class at its start. -/
def dropLeading (p : Char → Bool) (cs : List Char) : List Char := cs.dropWhile p

/-- The text without the members of a class at its end. -/
def dropTrailing (p : Char → Bool) (cs : List Char) : List Char :=
  (cs.reverse.dropWhile p).reverse

/-- The text without the members of a class at either end. -/
def strip (p : Char → Bool) (cs : List Char) : List Char := dropTrailing p (dropLeading p cs)

/-- A string without white space at either end. -/
def trim (s : String) : String := String.ofList (strip isBlank s.toList)

end RowAccess.Text

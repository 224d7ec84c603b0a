import RowAccess.Text.Blank

/-!
# Splitting text

Request values are lists separated by commas, field paths are segments separated by a doubled
underscore, and model references have one dot. Each splitter works on lists of characters, by
recursion on the text, and never returns an empty list: a text without the separator is its own
only piece.
-/

namespace RowAccess.Text

/-- Put a character in front of the first piece. -/
def consFirst (c : Char) : List (List Char) → List (List Char)
  | [] => [[c]]
  | piece :: pieces => (c :: piece) :: pieces

/-- The pieces between the occurrences of a separator. -/
def splitOn (sep : Char) : List Char → List (List Char)
  | [] => [[]]
  | c :: cs => if c = sep then [] :: splitOn sep cs else consFirst c (splitOn sep cs)

/-- The pieces between the leftmost disjoint occurrences of a doubled separator. -/
def splitOnDouble (sep : Char) : List Char → List (List Char)
  | [] => [[]]
  | [c] => [[c]]
  | c :: d :: cs =>
    if c = sep ∧ d = sep then [] :: splitOnDouble sep cs
    else consFirst c (splitOnDouble sep (d :: cs))

/-- What stands before and after the first occurrence of a separator. -/
def splitFirst? (sep : Char) : List Char → Option (List Char × List Char)
  | [] => none
  | c :: cs =>
    if c = sep then some ([], cs)
    else (splitFirst? sep cs).map fun (before, after) ↦ (c :: before, after)

/-- The trimmed entries of a comma-separated list; empty ones do not count. -/
def commaList (s : String) : List String :=
  ((splitOn ',' s.toList).map (strip isBlank)).filter (fun w ↦ !w.isEmpty) |>.map String.ofList

def startsWith (whole start : List Char) : Bool := start.isPrefixOf whole

def endsWith (whole ending : List Char) : Bool := ending.isSuffixOf whole

/-- A list occurs inside another one. -/
def occursIn (part : List Char) : List Char → Bool
  | [] => part.isEmpty
  | c :: cs => part.isPrefixOf (c :: cs) || occursIn part cs

end RowAccess.Text

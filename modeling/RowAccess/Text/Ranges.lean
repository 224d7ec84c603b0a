/-!
# Sets of code points

A property of characters is given as ascending ranges of code points, both ends included.
-/

namespace RowAccess.Text

def inRanges (ranges : List (Nat × Nat)) (n : Nat) : Bool :=
  ranges.any fun (low, high) ↦ low ≤ n && n ≤ high

end RowAccess.Text

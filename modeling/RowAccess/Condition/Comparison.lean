import RowAccess.Condition.Predicate
import RowAccess.Text.LowerCase

/-!
# What a condition says of one value

A condition compares one stored value with its operand. Text lookups see numbers, flags, arrays
and objects through their compact text, and never hold of null; the ones that ignore case compare
lower-cased texts.
-/

namespace RowAccess

/-- The text of a stored value, which null does not have. -/
def Json.comparable? : Json → Option String
  | .null => none
  | .text s => some s
  | value => some value.render

/-- The text of an operand of a text lookup. -/
def Operand.comparable? : Operand → Option String
  | .text s => some s
  | .int n => some (Text.writeInt n)
  | .date d => some d.render
  | .null | .bool _ | .list _ => none

namespace Condition

/-- Whether a test holds of the stored text and the operand's text. -/
def compareText (test : List Char → List Char → Bool) (operand : Operand) (stored : Json) : Bool :=
  match stored.comparable?, operand.comparable? with
  | some s, some o => test s.toList o.toList
  | _, _ => false

/-- A test of two texts that ignores case. -/
def ignoringCase (test : List Char → List Char → Bool) (s o : List Char) : Bool :=
  test (Text.lower s) (Text.lower o)

/-- Whether the stored value is ordered relative to the operand in an accepted way. -/
def compareOrder (accepted : Ordering → Bool) (operand : Operand) (stored : Json) : Bool :=
  (operand.compareStored stored).any accepted

/-- Whether a test holds of the length of a stored array and the operand. -/
def compareLength (test : Int → Int → Bool) (operand : Operand) (stored : Json) : Bool :=
  match stored, operand with
  | .array items, .int length => test items.length length
  | _, _ => false

/-- Whether a stored array has every item of a list operand. -/
def containsAll (operand : Operand) (stored : Json) : Bool :=
  match operand, stored with
  | .list wanted, .array items => wanted.all fun w ↦ items.any w.matchesStored
  | _, _ => false

/-- Whether a condition holds of a stored value. -/
def holdsOf (c : Condition) (stored : Json) : Bool :=
  match c.lookup with
  | .exact => c.operand.matchesStored stored
  | .iExact => compareText (ignoringCase (· == ·)) c.operand stored
  | .startsWith => compareText Text.startsWith c.operand stored
  | .iStartsWith => compareText (ignoringCase Text.startsWith) c.operand stored
  | .endsWith => compareText Text.endsWith c.operand stored
  | .iEndsWith => compareText (ignoringCase Text.endsWith) c.operand stored
  | .contains => compareText (fun s o ↦ Text.occursIn o s) c.operand stored
  | .iContains => compareText (ignoringCase fun s o ↦ Text.occursIn o s) c.operand stored
  | .gt => compareOrder Ordering.isGT c.operand stored
  | .gte => compareOrder Ordering.isGE c.operand stored
  | .lt => compareOrder Ordering.isLT c.operand stored
  | .lte => compareOrder Ordering.isLE c.operand stored
  | .lenEq => compareLength (fun length n ↦ length == n) c.operand stored
  | .lenGt => compareLength (fun length n ↦ n < length) c.operand stored
  | .arrayContains => containsAll c.operand stored

end Condition

end RowAccess

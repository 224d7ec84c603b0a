import RowAccess.Condition.Predicate
import RowAccess.Schema.FieldKind
import RowAccess.Text.DecimalDigit

/-!
# Operators in filter values

A filter value says how it compares by marks around its operand: `abc*` asks for a beginning,
`>=5` for a bound. Which marks count depends on the kind of the field. An operator is written as
a `Form`: what stands before the operand, what stands behind it, and which operands are allowed.
The first form that fits a value wins; a value that fits none is compared as it is.
-/

namespace RowAccess

/-- The writing of one operator. -/
structure Form where
  lookup : Lookup
  opening : String := ""
  closing : String := ""

namespace Form

def dropStart? : (start whole : List Char) → Option (List Char)
  | [], whole => some whole
  | _ :: _, [] => none
  | s :: start, c :: whole => if s = c then dropStart? start whole else none

def dropEnd? (ending whole : List Char) : Option (List Char) :=
  (dropStart? ending.reverse whole.reverse).map List.reverse

def write (form : Form) (operand : String) : String := form.opening ++ operand ++ form.closing

/-- The operand of a value written in a form, if it is not empty and all of its characters are
allowed. -/
def read? (allowed : Char → Bool) (form : Form) (value : String) : Option String := do
  let rest ← dropStart? form.opening.toList value.toList
  let operand ← dropEnd? form.closing.toList rest
  if !operand.isEmpty && operand.all allowed then some (String.ofList operand) else none

/-- The first of several forms that a value is written in, with its operand. -/
def match? (forms : List Form) (allowed : Char → Bool) (value : String) :
    Option (Lookup × String) :=
  forms.findSome? fun form ↦ (form.read? allowed value).map fun operand ↦ (form.lookup, operand)

/-- The operators on text. -/
def onText : List Form :=
  [⟨.startsWith, "", "*"⟩, ⟨.iStartsWith, "", "*|i"⟩, ⟨.endsWith, "*", ""⟩,
    ⟨.iEndsWith, "*", "|i"⟩, ⟨.contains, "*", "*"⟩, ⟨.iContains, "*", "*|i"⟩, ⟨.iExact, "", "|i"⟩]

/-- The operators on integers and dates. -/
def onOrder : List Form :=
  [⟨.gt, ">", ""⟩, ⟨.gte, ">=", ""⟩, ⟨.lt, "<", ""⟩, ⟨.lte, "<=", ""⟩]

/-- The operators on the length of arrays. -/
def onLength : List Form := [⟨.lenEq, "_eq", ""⟩, ⟨.lenGt, "_gt", ""⟩]

end Form

/-- A character that an operand of a text operator may hold: neither of the marks. -/
def isPlainChar (c : Char) : Bool := c != '*' && c != '|'

/-- A number as an operand, as text if it does not fit 64 bits. -/
def integerOperand (digits : String) : Operand :=
  match Text.readInt64? digits with
  | some n => .int n
  | none => .text digits

/-- A year as an operand: of four digits its last day for an upper bound and its first day
otherwise, and text if it has not four digits. -/
def yearOperand (lookup : Lookup) (digits : String) : Operand :=
  if digits.length = 4 then
    let year := Text.digitsValue digits.toList
    match lookup with
    | .lt | .lte => .date ⟨year, 12, 31⟩
    | _ => .date ⟨year, 1, 1⟩
  else .text digits

/-- The condition that a value of a filter on a field asks for. There is none without a value or a
field, on a field of unknown kind, and on a relation itself. -/
def compileValue (kind : Option FieldKind) (path value : String) : Option Predicate :=
  let asIs := Predicate.eq path (.text value)
  if path.isEmpty || value.isEmpty then none
  else
    match kind with
    | none | some .foreignKey | some .manyToMany => none
    | some .char | some .text | some .json =>
      match Form.match? Form.onText isPlainChar value with
      | some (lookup, operand) => some (.compare path lookup (.text operand))
      | none => some asIs
    | some .integer =>
      match Form.match? Form.onOrder Text.isDigit value with
      | some (lookup, digits) => some (.compare path lookup (integerOperand digits))
      | none => some asIs
    | some .date =>
      match Form.match? Form.onOrder Text.isDigit value with
      | some (lookup, digits) => some (.compare path lookup (yearOperand lookup digits))
      | none => some asIs
    | some .boolean =>
      if value == "true" || value == "True" then some (.eq path (.bool true))
      else if value == "false" || value == "False" then some (.eq path (.bool false))
      else some asIs
    | some .nullBoolean =>
      if value == "true" || value == "True" then some (.eq path (.bool true))
      else if value == "false" || value == "False" then some (.eq path .null)
      else some asIs
    | some .array =>
      match Form.match? Form.onLength Text.isDecimalDigit value with
      | some (lookup, digits) => some (.compare path lookup (integerOperand digits))
      | none => some (.compare path .arrayContains (.list [.text value]))
    | some .dateTime | some .auto => some asIs

end RowAccess

import RowAccess.Calendar.Date
import RowAccess.Json.Printer
import RowAccess.Number.Literal
import RowAccess.Text.Quoted

/-!
# Operands

A condition compares stored JSON with an operand. Operands are typed more finely than JSON, since
they know dates; but they come from request text, so a text operand also matches a stored number
or flag that is written the same way, and a date matches the date at the start of stored text.
-/

namespace RowAccess

/-- The right-hand side of a condition. -/
inductive Operand where
  | null
  | bool (b : Bool)
  | int (n : Int)
  | date (d : Date)
  | text (s : String)
  | list (items : List Operand)

namespace Operand

instance : Inhabited Operand := ⟨.null⟩

def asText? : Operand → Option String
  | text s => some s
  | _ => none

def asInt? : Operand → Option Int
  | int n => some n
  | _ => none

def isNull : Operand → Bool
  | null => true
  | _ => false

mutual

/-- Whether a stored value equals an operand. -/
def matchesStored : Operand → Json → Bool
  | .null, .null => true
  | .bool a, .bool b => a == b
  | .int a, .number n => n.asInt64? == some a
  | .date d, .text s => Date.ofStored? s == some d
  | .text a, .text b => a == b
  | .text a, .number n => a == n.render
  | .text a, .bool b => a == (if b then "true" else "false")
  | .list items, .array stored => matchesItems items stored
  | _, _ => false

def matchesItems : List Operand → List Json → Bool
  | [], [] => true
  | item :: items, value :: stored => item.matchesStored value && matchesItems items stored
  | _, _ => false

end

/-- How a stored value is ordered relative to an operand, if the two can be compared: integers,
dates and texts with their like, and numbers with the number that a text denotes. -/
def compareStored : Operand → Json → Option Ordering
  | .int a, .number n => n.asInt64?.map fun b ↦ compare b a
  | .date d, .text s => (Date.ofStored? s).map fun b ↦ b.order d
  | .text a, .text b => some (compare b a)
  | .text a, .number n => (Binary64.readExtended? a).bind fun x ↦ Extended.order? n.toBinary64 x
  | _, _ => none

mutual

/-- The text that shows an operand. -/
def render : Operand → String
  | .null => "null"
  | .bool true => "true"
  | .bool false => "false"
  | .int n => Text.writeInt n
  | .date d => d.render
  | .text s => Text.quote s
  | .list items => "[" ++ String.intercalate ", " (renderItems items) ++ "]"

def renderItems : List Operand → List String
  | [] => []
  | item :: rest => item.render :: renderItems rest

end

mutual

/-- An operand as a JSON value; a date becomes its text. -/
def toJson : Operand → Json
  | .null => .null
  | .bool b => .bool b
  | .int n => .int n
  | .date d => .text d.render
  | .text s => .text s
  | .list items => .array (toJsonItems items)

def toJsonItems : List Operand → List Json
  | [] => []
  | item :: rest => item.toJson :: toJsonItems rest

end

mutual

/-- The operand that a JSON value denotes: text that holds a date is a date, and floats and
objects denote nothing. -/
def ofJson? : Json → Option Operand
  | .null => some .null
  | .bool b => some (.bool b)
  | .number n => n.asInt64?.map .int
  | .text s =>
    match Date.parseLoose? s with
    | some d => some (.date d)
    | none => some (.text s)
  | .array items => (ofJsonItems? items).map .list
  | .object _ => none

/-- The operands of the items of an array. -/
def ofJsonItems? : List Json → Option (List Operand)
  | [] => some []
  | item :: rest =>
    match ofJson? item, ofJsonItems? rest with
    | some item, some rest => some (item :: rest)
    | _, _ => none

end

end Operand

end RowAccess

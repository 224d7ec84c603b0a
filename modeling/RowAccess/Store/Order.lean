import RowAccess.Json.Basic
import RowAccess.Query.Parameters

/-!
# The order of rows

Rows are ordered by the values of the sort keys of a request, and rows that no key tells apart by
their ids. Values of different types are ordered by type, with null and missing values first; all
arrays are equal to each other here, and so are all objects. Numbers are compared as double
precision numbers.
-/

namespace RowAccess

namespace Json

/-- The place of a type among all types. -/
def rank : Json → Nat
  | .null => 0
  | .bool _ => 1
  | .number _ => 2
  | .text _ => 3
  | .array _ => 4
  | .object _ => 5

/-- The order of values. -/
def order : Json → Json → Ordering
  | .bool a, .bool b => compare a b
  | .number a, .number b => a.toBinary64.order b.toBinary64
  | .text a, .text b => compare a b
  | a, b => compare a.rank b.rank

end Json

namespace SortKey

def order (key : SortKey) (a b : Row) : Ordering :=
  let ascending := (a.valueOf key.field).order (b.valueOf key.field)
  if key.descending then ascending.swap else ascending

end SortKey

namespace Row

/-- The order of ids; a row without an id comes first. -/
def idOrder (a b : Row) : Ordering :=
  match a.id?, b.id? with
  | some a, some b => compare a b
  | some _, none => .gt
  | none, some _ => .lt
  | none, none => .eq

/-- The order of rows by several keys, the first one first, and then by id. -/
def order : (keys : List SortKey) → (a b : Row) → Ordering
  | [], a, b => a.idOrder b
  | key :: keys, a, b => (key.order a b).then (order keys a b)

/-- The rows in order. -/
def sorted (keys : List SortKey) (rows : List Row) : List Row :=
  rows.mergeSort fun a b ↦ order keys a b != .gt

end Row

end RowAccess

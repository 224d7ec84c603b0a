import RowAccess.Json.Basic

/-!
# Pages of a list

A list answers with one window of its rows and with where that window lies. A request may name a
row instead of a position; then the window is the page that holds it.
-/

namespace RowAccess

/-- Where a window lies in a list. -/
structure Pagination where
  offset : Nat
  /-- The page size; without one the window is the whole list. -/
  limit : Option Nat
  /-- The length of the whole list. -/
  count : Nat
  deriving DecidableEq, Repr

namespace Pagination

/-- Whether rows follow the window. The end of a window that would lie beyond 64 bits counts as the
greatest position. -/
def hasNext (p : Pagination) : Bool :=
  match p.limit with
  | some limit => min (p.offset + limit) Text.nat64Max < p.count
  | none => false

def hasPrevious (p : Pagination) : Bool := 0 < p.offset

def toJson (p : Pagination) : Json :=
  .object
    [("offset", .nat p.offset), ("limit", (p.limit.map Json.nat).getD .null),
      ("count", .nat p.count), ("has_next", .bool p.hasNext), ("has_prev", .bool p.hasPrevious)]

end Pagination

/-- The beginning of the page that holds a target. A target that is not in the list counts as the
first one, and pages have at least one row. -/
def pageStart (ids : List Int) (target : Option Int) (pageSize : Nat) : Nat :=
  let size := max pageSize 1
  let position := (target.bind fun id ↦ ids.idxOf? id).getD 0
  position / size * size

end RowAccess

import RowAccess.Store.Evaluation
import RowAccess.Store.Order

/-!
# Running plans

A plan selects the rows of a table that every one of its steps keeps, and puts them in order. A
window of them is returned together with their number.
-/

namespace RowAccess

/-- A slice of an ordered list of rows; without a limit it extends to the end. -/
structure Window where
  offset : Nat := 0
  limit : Option Nat := none
  deriving DecidableEq, Repr

/-- The part of a list that lies in a window. -/
def Window.slice {α : Type} (w : Window) (items : List α) : List α :=
  match w.limit with
  | some limit => (items.drop w.offset).take limit
  | none => items.drop w.offset

/-- The rows of one window, and how many rows there are in all. -/
structure Page where
  rows : List Row
  count : Nat

namespace Store

/-- The rows that a plan selects, in order. -/
def selected (s : Store) (key : ModelKey) (plan : Plan) : Except StoreFault (List Row) :=
  match s.registry.get? key, s.table? key with
  | some m, some t =>
    .ok (Row.sorted plan.sort (t.rows.filter fun row ↦ plan.steps.all (s.keeps m row)))
  | _, _ => .error (.unknownTable key.render)

/-- The rows of one window of what a plan selects. -/
def select (s : Store) (key : ModelKey) (plan : Plan) (window : Window) :
    Except StoreFault Page := do
  let rows ← s.selected key plan
  return ⟨window.slice rows, rows.length⟩

/-- The ids of the rows that a plan selects, in order. -/
def orderedIds (s : Store) (key : ModelKey) (plan : Plan) : Except StoreFault (List Int) := do
  return (← s.selected key plan).filterMap Row.id?

end Store

end RowAccess

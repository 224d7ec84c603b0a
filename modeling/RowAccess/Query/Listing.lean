import RowAccess.Query.Compilation
import RowAccess.Query.Paging
import RowAccess.Query.Plan
import RowAccess.Store.Selection
import RowAccess.Visibility.Policy

/-!
# The query of a list request

A list request selects the visible rows that meet its filters, in the order it asks for, and
returns one window of them: the page at a position, the page that holds a certain row, or
everything if there is no page size.
-/

namespace RowAccess

/-- The plan of a list request on a model. -/
def Registry.listPlan (r : Registry) (m : Model) (identity : Identity) (p : Parameters) :
    Except AccessDenial Plan := do
  let visibility ← r.visibleRows m identity p
  let plan :=
    Plan.combine visibility (compileParameters p r m .filter) (compileParameters p r m .exclude)
  return { plan with sort := p.sort }

/-- The window of a list request. -/
def Store.listWindow (s : Store) (m : Model) (plan : Plan) (p : Parameters) :
    Except StoreFault Window :=
  match s.registry.settings.pageSize p.limit?, p.show? with
  | some size, some target => do
    let ids ← s.orderedIds m.key plan
    return ⟨pageStart ids (Text.readInt64? target) size, some size⟩
  | some size, none => .ok ⟨p.offset?.getD 0, some size⟩
  | none, _ => .ok ⟨0, none⟩

/-- The fields that a request is answered with: the declared ones among those it asks for, or the
model's own choice. -/
def Model.fieldsToShow (m : Model) (p : Parameters) : List String :=
  Registry.shownFields m (p.fields?.map fun fields ↦ fields.filter m.hasField)

/-- A row with some of its fields; missing ones are null. -/
def Row.project (row : Row) (fields : List String) : Row :=
  .ofList (fields.map fun field ↦ (field, row.valueOf field))

end RowAccess

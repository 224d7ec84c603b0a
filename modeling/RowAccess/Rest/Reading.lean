import RowAccess.Audit
import RowAccess.Query.Listing
import RowAccess.Rest.EntityTag

/-!
# Reading rows

Lists and details show the rows that the requester may see. A list is answered from a plan; a
detail asks for one id on top of the visibility, so that a row that is not visible looks like a row
that does not exist. Models with a private name ask for a permission to be read at all.
-/

namespace RowAccess

/-- The model that a request addresses. -/
def Registry.modelOf (r : Registry) (app model : String) : Except Fault Model :=
  match r.get? ⟨app, model⟩ with
  | some m => .ok m
  | none => .error (.entity (.unknownModel app model))

namespace Model

/-- The fault of a row that does not exist, or is not to be seen. -/
def notFound (m : Model) (id : String) : Fault := .entity (.notFound m.key.render id)

/-- The requester may act on the model. -/
def requirePermission (m : Model) (identity : Identity) (action : String) : Except Fault Unit :=
  if !identity.isAuthenticated then .error (.access .authenticationRequired)
  else if identity.hasPermission m.key.app action m.key.model then .ok ()
  else
    .error (.request (.forbidden
      ("missing permission " ++ permissionName m.key.app action m.key.model)))

/-- Whether the model's name says that reading it needs a permission. -/
def isPrivate (m : Model) : Bool := Text.startsWith m.key.model.toList "private".toList

/-- The requester may read the model. -/
def requireReading (m : Model) (identity : Identity) : Except Fault Unit :=
  if m.isPrivate then m.requirePermission identity "view" else .ok ()

end Model

namespace Store

/-- The stored row that a request addresses, with its id. -/
def rowOf (s : Store) (m : Model) (id : String) : Except Fault (Int × Row) :=
  match Text.readInt64? id with
  | none => .error (m.notFound id)
  | some n => do
    match ← (s.get m.key n).mapError .store with
    | some row => return (n, row)
    | none => throw (m.notFound id)

/-- The response to a list request. -/
def list (s : Store) (m : Model) (identity : Identity) (p : Parameters) :
    Except Fault Response := do
  m.requireReading identity
  let plan ← (s.registry.listPlan m identity p).mapError .access
  let window ← (s.listWindow m plan p).mapError .store
  let page ← (s.select m.key plan window).mapError .store
  let fields := m.fieldsToShow p
  let place : Pagination := ⟨window.offset, window.limit, page.count⟩
  return .ofJson (.object
    [("results", .array (page.rows.map fun row ↦ (row.project fields).toJson)),
      ("pagination", place.toJson)])

/-- The plan that selects a row by its id from the visible ones. -/
def detailPlan (visibility : Predicate) (id : Int) : Plan :=
  .matching (visibility.and (.eq "id" (.int id)))

/-- The response to a detail request. -/
def detail (s : Store) (m : Model) (identity : Except Fault Identity) (p : Parameters)
    (id : String) : Except Fault Response := do
  let (n, _) ← s.rowOf m id
  let identity ← identity
  m.requireReading identity
  let visibility ← (s.registry.visibleRows m identity p).mapError .access
  let page ← (s.select m.key (detailPlan visibility n) {}).mapError .store
  match page.rows with
  | [] => throw (m.notFound id)
  | row :: _ =>
    return {
      status := 200
      etag := some (EntityTag.ofVersion row.version)
      content := .json (row.project (m.fieldsToShow p)).toJson }

end Store

end RowAccess

import RowAccess.Rest.Reading

/-!
# Writing rows

Creating, changing and deleting rows, and taking an item out of a many-to-many field. Every write
has two parts: what is to be stored is worked out from the stored row, the requester and the body,
and only then the store is changed, once. A write that fails in its first part has no effect.
-/

namespace RowAccess

/-! ## Bodies -/

/-- A relation holds ids: a foreign key one or null, a many-to-many field a list of them. -/
def FieldKind.accepts : FieldKind → Json → Bool
  | foreignKey, value => value.isNull || value.isInt64
  | manyToMany, .array items => items.all Json.isInt64
  | manyToMany, _ => false
  | _, _ => true

namespace Model

/-- Take one field of a body: an unknown one is a fault, a managed one does not count. -/
def acceptField (m : Model) (row : Row) (name : String) (value : Json) :
    Except BodyFault Row :=
  match m.field? name with
  | none => .error (.unknownField name)
  | some spec =>
    if isManaged name then .ok row
    else if spec.kind.accepts value then .ok (row.insert name value)
    else
      .error (.invalidValue name
        ("expected " ++ spec.kind.name ++ " id(s), got " ++ value.render))

/-- The fields that a body writes. -/
def acceptBody (m : Model) : Json → Except BodyFault Row
  | .object fields => fields.foldlM (fun row (name, value) ↦ m.acceptField row name value) .empty
  | _ => .error .notAnObject

/-- Every required field has a value. -/
def requireFields (m : Model) (row : Row) : Except BodyFault Unit :=
  match m.requiredFields.filter fun field ↦ (row.valueOf field).isNull with
  | [] => .ok ()
  | missing => .error (.missingRequired missing)

/-! ## Rows to store -/

/-- The row that a create request stores, still without its id. -/
def newRow (m : Model) (identity : Identity) (now : Instant) (body : Json) : Except Fault Row := do
  m.requirePermission identity "add"
  let row ← (m.acceptBody body).mapError .body
  (m.requireFields row).mapError .body
  return row.stampCreated identity now

end Model

/-- How an update treats the fields that its body does not name. -/
inductive UpdateMode where
  /-- They are dropped. -/
  | replace
  /-- They are kept. -/
  | patch
  deriving DecidableEq, Repr

namespace Model

/-- The row that the fields of an update's body make of a stored row. A replacement with the same
content does not count as a change, but every update counts as a version. -/
def changedRow (m : Model) (mode : UpdateMode) (identity : Identity) (now : Instant)
    (stored changes : Row) : Except BodyFault Row :=
  match mode with
  | .patch =>
    let row : Row := stored.insertAll changes.entries
    return (row.stampModified identity now).bumpVersion
  | .replace => do
    m.requireFields changes
    let row := changes.carryOver stored
    if stored.contentDiffers row then return (row.stampModified identity now).bumpVersion
    else return row.bumpVersion

/-- The row that an update request stores in place of the row it found. -/
def updatedRow (m : Model) (mode : UpdateMode) (identity : Except Fault Identity)
    (headers : Headers) (now : Instant) (stored : Row) (body : Json) : Except Fault Row := do
  let identity ← identity
  m.requirePermission identity "change"
  EntityTag.check headers stored.version
  let changes ← (m.acceptBody body).mapError .body
  (m.changedRow mode identity now stored changes).mapError .body

/-- The many-to-many field that an unlink request addresses holds items of the addressed model. -/
def checkLink (m : Model) (field itemModel : String) : Except Fault Unit :=
  match (m.field? field).filter fun spec ↦ spec.kind == .manyToMany with
  | none => .error (.entity (.notManyToMany m.key.render field))
  | some spec =>
    if spec.target.any fun target ↦ target.model != itemModel then
      .error (.body (.invalidValue field ("does not hold " ++ itemModel ++ " items")))
    else .ok ()

end Model

/-- A row without an item in one of its fields. -/
def Row.removeItem (row : Row) (field : String) (item : Int) : Row :=
  match row.get? field with
  | some (.array items) =>
    row.insert field (.array (items.filter fun v ↦ v.asInt64? != some item))
  | _ => row

/-- The row that an unlink request stores in place of the row it found. -/
def Model.unlinkedRow (m : Model) (identity : Except Fault Identity) (now : Instant) (stored : Row)
    (field itemModel item : String) : Except Fault Row := do
  let identity ← identity
  m.requirePermission identity "change"
  m.checkLink field itemModel
  match Text.readInt64? item with
  | none => throw (.entity (.notFound itemModel item))
  | some item => return ((stored.removeItem field item).stampModified identity now).bumpVersion

/-! ## Requests -/

namespace Store

/-- The response to a create request, and the store after it. -/
def create (s : Store) (m : Model) (identity : Identity) (now : Instant) (body : Json) :
    Except Fault (Response × Store) := do
  let row ← m.newRow identity now body
  let (stored, s) ← (s.insert m.key row).mapError .store
  return ({
    status := 201
    etag := some (EntityTag.ofVersion stored.version)
    content := .json stored.toJson }, s)

/-- Store a row in place of one that was found before. -/
def commit (s : Store) (m : Model) (id : String) (n : Int) (row : Row) :
    Except Fault (Row × Store) := do
  match ← (s.update m.key n row).mapError .store with
  | (some stored, s) => return (stored, s)
  | (none, _) => throw (m.notFound id)

/-- The response to an update request, and the store after it. -/
def change (s : Store) (m : Model) (mode : UpdateMode) (identity : Except Fault Identity)
    (headers : Headers) (now : Instant) (id : String) (body : Json) :
    Except Fault (Response × Store) := do
  let (n, found) ← s.rowOf m id
  let row ← m.updatedRow mode identity headers now found body
  let (stored, s) ← s.commit m id n row
  return ({
    status := 200
    etag := some (EntityTag.ofVersion row.version)
    content := .json stored.toJson }, s)

/-- The response to a delete request, and the store after it. -/
def remove (s : Store) (m : Model) (identity : Except Fault Identity) (id : String) :
    Except Fault (Response × Store) := do
  let (n, _) ← s.rowOf m id
  m.requirePermission (← identity) "delete"
  match ← (s.delete m.key n).mapError .store with
  | (true, s) => return (.bare 204, s)
  | (false, _) => throw (m.notFound id)

/-- The response to an unlink request, and the store after it. -/
def unlink (s : Store) (m : Model) (identity : Except Fault Identity) (now : Instant)
    (id field itemModel item : String) : Except Fault (Response × Store) := do
  let (n, found) ← s.rowOf m id
  let row ← m.unlinkedRow identity now found field itemModel item
  let (_, s) ← s.commit m id n row
  return (.bare 204, s)

end Store

end RowAccess

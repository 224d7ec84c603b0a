import RowAccess.Calendar.Instant
import RowAccess.Schema.Model
import RowAccess.Store.Table
import RowAccess.Visibility.Identity

/-!
# Audit fields

Every row records who created it and who changed it last, when, and how often it was written. These
fields and the id are managed by the service: what a request says about them does not count.
-/

namespace RowAccess

/-- The fields of a row that requests cannot write. -/
def managedFields : List String := "id" :: auditFields.map Prod.fst

/-- Whether requests cannot write a field. -/
def isManaged (field : String) : Bool := managedFields.contains field

/-- The requester's name as a stored value. -/
def Identity.auditValue (i : Identity) : Json := .textOrNull i.auditName?

namespace Row

/-- Record the creation of a row. -/
def stampCreated (row : Row) (identity : Identity) (now : Instant) : Row :=
  ((row.insert "created_time" (.text now.render)).insert "created_by" identity.auditValue).insert
    "version_number" (.int 1)

/-- Record a change of a row. -/
def stampModified (row : Row) (identity : Identity) (now : Instant) : Row :=
  (row.insert "last_modified_time" (.text now.render)).insert "last_modified_by"
    identity.auditValue

/-- The version of a row; a row without an integer version has version zero. -/
def version (row : Row) : Int := ((row.get? "version_number").bind Json.asInt64?).getD 0

/-- Count one more write. -/
def bumpVersion (row : Row) : Row := row.insert "version_number" (.int (row.version + 1))

/-- Give a row a field as another one has it, or does not have it. -/
def copyField (stored row : Row) (field : String) : Row :=
  match stored.get? field with
  | some value => row.insert field value
  | none => row.erase field

/-- Give a row the managed fields of another one. -/
def carryOver (row stored : Row) : Row := managedFields.foldl (copyField stored) row

/-- The fields of a row that requests can write. -/
def content (row : Row) : Row := row.filterKeys fun field ↦ !isManaged field

/-- Whether two rows differ in a field that requests can write. -/
def contentDiffers (a b : Row) : Bool := !a.content.toJson.same b.content.toJson

end Row

end RowAccess

import RowAccess.Condition.Predicate
import RowAccess.Schema.Registry

/-!
# Types of field paths

A filter key is a field, or a path through relations to a field of a related model. Its type
decides which operators its values may use. A path is followed through relations until it meets a
field that is none, whose kind is the kind of the path; a path that ends on a relation has no kind,
since a filter has to name what it compares.
-/

namespace RowAccess

namespace Registry

/-- The kind of the first field that is no relation on a path from a model. The path begins with a
relation. -/
def kindAlong? (r : Registry) (m : Model) : (segments : List String) → Option FieldKind
  | first :: next :: rest => do
    let target ← (← m.field? first).target
    let spec ← r.searchable? target next
    if spec.kind.isRelation then r.kindAlong? (← r.get? target) (next :: rest)
    else some spec.kind
  | _ => none

/-- The kind of the field that a relation path leads to. -/
def relatedKind? (r : Registry) (m : Model) (path : String) : Option FieldKind :=
  r.kindAlong? m (pathSegments path)

/-- The kind of a filter key: of a plain field its own, of a relation that of the field its path
leads to. -/
def filterKind? (r : Registry) (m : Model) (key : String) : Option FieldKind := do
  let spec ← m.field? (pathRoot key)
  if spec.kind.isRelation then r.relatedKind? m key
  else if pathRoot key == key then some spec.kind
  else none

end Registry

end RowAccess

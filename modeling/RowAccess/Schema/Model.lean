import RowAccess.Ordered
import RowAccess.Schema.Fault
import RowAccess.Schema.FieldKind
import RowAccess.Schema.Tier
import RowAccess.Text.Split

/-!
# Models

A model is addressed by its app and its name, and described by its tier and its fields. Every
model has an `id` and five audit fields before the fields it declares.
-/

namespace RowAccess

/-- The address of a model: the app that owns it and its name. -/
structure ModelKey where
  app : String
  model : String
  deriving DecidableEq, Repr

namespace ModelKey

/-- The text `app.model`. -/
def render (key : ModelKey) : String := key.app ++ "." ++ key.model

/-- Read `app.model`, or a bare model name inside a default app. There is exactly one dot, and
neither part is empty. -/
def parse (value defaultApp : String) : Except SchemaFault ModelKey :=
  match Text.splitFirst? '.' value.toList with
  | some (app, model) =>
    if app.isEmpty || model.isEmpty || model.contains '.' then
      .error (.invalidReference value "expected 'app.model'")
    else .ok ⟨String.ofList app, String.ofList model⟩
  | none =>
    if value.isEmpty then .error (.invalidReference value "empty model reference")
    else .ok ⟨defaultApp, value⟩

end ModelKey

/-- A field's kind and, for relations, the model it points at. -/
structure FieldSpec where
  kind : FieldKind
  target : Option ModelKey := none
  deriving DecidableEq, Repr

/-- The audit fields of every model. -/
def auditFields : List (String × FieldKind) :=
  [("created_time", .dateTime), ("created_by", .text), ("last_modified_time", .dateTime),
    ("last_modified_by", .text), ("version_number", .integer)]

/-- The fields that every model has. -/
def implicitFields : Ordered FieldSpec :=
  .ofList (("id", ⟨.auto, none⟩) :: auditFields.map fun (name, kind) ↦ (name, ⟨kind, none⟩))

/-- The description of one model. -/
structure Model where
  key : ModelKey
  tier : Tier
  fields : Ordered FieldSpec := implicitFields
  requiredFields : List String := []
  /-- The app of the project model, if it is not the model's own app. -/
  projectApp : Option String := none
  /-- The field that holds the id of the owning user. -/
  ownerField : String := "user"
  /-- On project models, the relations that name the project's members. -/
  userFields : List String := []
  /-- The fields shown when a request does not ask for particular ones. -/
  shownFields : Option (List String) := none

namespace Model

/-- The kind and target of a declared field. -/
def field? (m : Model) (name : String) : Option FieldSpec := m.fields.get? name

def hasField (m : Model) (name : String) : Bool := m.fields.contains name

/-- Whether a field is declared as a flag. -/
def hasFlag (m : Model) (name : String) : Bool :=
  (m.field? name).any fun spec ↦ spec.kind.isFlag

/-- Whether a field is declared as a relation. -/
def hasRelation (m : Model) (name : String) : Bool :=
  (m.field? name).any fun spec ↦ spec.kind.isRelation

/-- Whether a field is declared as a many-to-many relation. -/
def isManyToMany (m : Model) (name : String) : Bool :=
  (m.field? name).any fun spec ↦ spec.kind == .manyToMany

theorem hasFlag_iff {m : Model} {name : String} :
    m.hasFlag name = true ↔ ∃ spec, m.field? name = some spec ∧ spec.kind.isFlag = true := by
  rw [hasFlag, Option.any_eq_true]

theorem hasRelation_iff {m : Model} {name : String} :
    m.hasRelation name = true ↔
      ∃ spec, m.field? name = some spec ∧ spec.kind.isRelation = true := by
  rw [hasRelation, Option.any_eq_true]

theorem isManyToMany_iff {m : Model} {name : String} :
    m.isManyToMany name = true ↔ ∃ spec, m.field? name = some spec ∧ spec.kind = .manyToMany := by
  rw [isManyToMany, Option.any_eq_true]
  simp only [beq_iff_eq]

/-- The key of the model whose rows are this model's projects. -/
def projectKey (m : Model) : ModelKey := ⟨m.projectApp.getD m.key.app, "project"⟩

end Model

end RowAccess

import RowAccess.Schema.Validation

/-!
# Declarations

What the author of a schema writes: settings, and apps with their models and fields. Optional parts
are kept as they were written; defaults are filled in when a declaration becomes a model.
-/

namespace RowAccess

/-- The declaration of a field: its kind, or its kind with an optional target. -/
inductive FieldDeclaration where
  | bare (kind : FieldKind)
  | detailed (kind : FieldKind) (target : Option String)
  deriving DecidableEq, Repr

namespace FieldDeclaration

def kind : FieldDeclaration → FieldKind
  | bare kind => kind
  | detailed kind _ => kind

def target : FieldDeclaration → Option String
  | bare _ => none
  | detailed _ target => target

/-- The kind and target of a declared field inside an app. A relation needs a target, which may be
a bare model name of the same app; the target of any other kind does not count. -/
def toSpec (d : FieldDeclaration) (app model name : String) : Except SchemaFault FieldSpec :=
  if d.kind.isRelation then
    match d.target with
    | some target => (ModelKey.parse target app).map fun key ↦ ⟨d.kind, some key⟩
    | none => .error (.missingTarget model name)
  else .ok ⟨d.kind, none⟩

end FieldDeclaration

/-- The declaration of a model. -/
structure ModelDeclaration where
  name : String
  tier : Option String := none
  fields : Ordered FieldDeclaration := .empty
  requiredFields : List String := []
  shownFields : Option (List String) := none
  ownerField : Option String := none
  projectApp : Option String := none
  userFields : List String := []

/-- The tier of a declaration: a model that names none is private. -/
def Tier.ofDeclaration : Option String → Except AccessDenial Tier
  | none => .ok .private
  | some name =>
    match Tier.ofName? name with
    | some tier => .ok tier
    | none => .error (.unknownTier name)

/-- The model that a declaration inside an app describes. -/
def ModelDeclaration.toModel (d : ModelDeclaration) (app : String) : Except SchemaFault Model := do
  let key : ModelKey := ⟨app, d.name⟩
  let tier ← (Tier.ofDeclaration d.tier).mapError fun cause ↦ .unusableTier key.render cause
  let specs ← d.fields.entries.mapM fun (name, field) ↦ do
    return (name, ← field.toSpec app key.render name)
  return {
    key, tier
    fields := implicitFields.insertAll specs
    requiredFields := d.requiredFields
    projectApp := d.projectApp
    ownerField := d.ownerField.getD "user"
    userFields := d.userFields
    shownFields := d.shownFields }

/-- The declaration of an app. -/
structure AppDeclaration where
  name : String
  models : List ModelDeclaration := []

/-- The declaration of a whole schema. -/
structure SchemaDeclaration where
  settings : Settings := {}
  apps : List AppDeclaration

namespace SchemaDeclaration

def modelCount (d : SchemaDeclaration) : Nat := (d.apps.flatMap AppDeclaration.models).length

/-- The registry of the declared models, before its models are checked against each other. -/
def toRegistry (d : SchemaDeclaration) : Except SchemaFault Registry := do
  let empty ← Registry.new d.settings
  let declared := d.apps.flatMap fun app ↦ app.models.map fun model ↦ (app.name, model)
  declared.foldlM (fun r (app, model) ↦ do r.register (← model.toModel app)) empty

end SchemaDeclaration

/-- The registry of a declaration whose models fit each other. -/
def Registry.ofDeclaration (d : SchemaDeclaration) : Except SchemaFault Registry := do
  let r ← d.toRegistry
  r.validate
  return r

end RowAccess

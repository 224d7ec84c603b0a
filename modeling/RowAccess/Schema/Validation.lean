import RowAccess.Schema.Registry

/-!
# Consistency of a schema

Before a registry serves requests, every model is checked against the others: relations have
registered targets, lists of fields name declared ones, and the model declares what its tier
reads. The first fault in a fixed order is reported. The check of a tier's needs is also made on
every request, so it stands on its own.
-/

namespace RowAccess

namespace Registry

/-- Whether a model's project model is registered. -/
def knowsProject (r : Registry) (m : Model) : Bool := r.contains m.projectKey

/-- Whether a model declares what its tier reads. -/
def checkTier (r : Registry) (m : Model) : Except AccessDenial Unit :=
  match m.tier with
  | .publicOrProject =>
    if m.hasFlag "public" && m.hasRelation "project" && r.knowsProject m then .ok ()
    else .error (.incompatibleModel AccessDenial.publicOrProjectCode)
  | .project | .projectOrUser =>
    if m.hasRelation "project" && r.knowsProject m then .ok ()
    else .error (.incompatibleModel AccessDenial.projectCode)
  | .publicOrUser =>
    if m.hasFlag "public" then .ok ()
    else .error (.incompatibleModel AccessDenial.publicOrUserCode)
  | .public | .loggedIn | .private => .ok ()

/-- A relation has a target, and the target is registered or the identity model. -/
def checkField (r : Registry) (model : String) (name : String) (spec : FieldSpec) :
    Except SchemaFault Unit :=
  if spec.kind.isRelation then
    match spec.target with
    | some target =>
      if r.contains target || r.isIdentity target then .ok ()
      else .error (.unknownTarget model name target.render)
    | none => .error (.missingTarget model name)
  else .ok ()

/-- Every name in a list satisfies a test on declared fields. -/
def checkNames (model context : String) (known : String → Bool) (names : List String) :
    Except SchemaFault Unit :=
  match names.find? fun name ↦ !known name with
  | some name => .error (.unknownField model name context)
  | none => .ok ()

/-- A tier that filters through projects has a project model that names its members. -/
def checkProject (r : Registry) (m : Model) : Except SchemaFault Unit :=
  if m.tier.needsProject then
    match r.get? m.projectKey with
    | none => .error (.unusableProject m.key.render m.projectKey.render "is not declared")
    | some project =>
      if project.userFields.isEmpty then
        .error (.unusableProject m.key.render m.projectKey.render "declares no user_fields")
      else .ok ()
  else .ok ()

/-- The checks of one model, in their order. -/
def checkModel (r : Registry) (m : Model) : Except SchemaFault Unit := do
  let model := m.key.render
  m.fields.entries.forM fun (name, spec) ↦ r.checkField model name spec
  checkNames model "required_fields" m.hasField m.requiredFields
  checkNames model "serialization_fields" m.hasField (m.shownFields.getD [])
  checkNames model "user_fields" m.hasRelation m.userFields
  if m.tier.readsOwner then checkNames model "owner_field" m.hasField [m.ownerField]
  (r.checkTier m).mapError fun cause ↦ .unusableTier model cause
  r.checkProject m

/-- The checks of every model. -/
def validate (r : Registry) : Except SchemaFault Unit := r.models.forM r.checkModel

end Registry

end RowAccess

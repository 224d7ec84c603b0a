import RowAccess.Condition.Predicate
import RowAccess.Query.Parameters
import RowAccess.Schema.Validation
import RowAccess.Visibility.Identity

/-!
# Visibility of rows

The tier of a model, the requester and the parameters of the request decide which rows may be
seen: none, with a cause, or those that satisfy a predicate. Tiers of projects ask for a project
to be selected, although the rows of every project of the requester are visible then: which of
them are returned is left to the filter.
-/

namespace RowAccess

/-- The rows that are marked as public. -/
def publicRows : Predicate := .eq "public" (.bool true)

/-- The rows of a model that a user owns. -/
def ownedRows (m : Model) (user : Int) : Predicate := .eq m.ownerField (.int user)

/-- The rows of the projects that name a user as a member. -/
def memberRows (project : Model) (user : Int) : Predicate :=
  .mkAny (project.userFields.map fun field ↦ .eq (joinPath ["project", field]) (.int user))

/-- The id of an authenticated requester. -/
def requireUser (identity : Identity) : Except AccessDenial Int :=
  match identity.userId? with
  | some user => .ok user
  | none => .error .authenticationRequired

namespace Registry

/-- Whether a request selects a project in a way that the settings accept. -/
def selectsProject (r : Registry) (p : Parameters) : Bool :=
  p.selectsProject || (p.selectsProjectBare && r.settings.acceptBareProjectSelector)

/-- The project model of a model. -/
def requireProject (r : Registry) (m : Model) (code : Nat) : Except AccessDenial Model :=
  match r.get? m.projectKey with
  | some project => .ok project
  | none => .error (.incompatibleModel code)

/-- The rows of a model that a requester may see. -/
def visibleRows (r : Registry) (m : Model) (identity : Identity) (p : Parameters) :
    Except AccessDenial Predicate :=
  let superuser := identity.isSuperuserOf m.key.app
  match m.tier with
  | .public => return .always
  | .loggedIn => do
    let _ ← requireUser identity
    return .always
  | .publicOrProject => do
    r.checkTier m
    match identity.userId? with
    | none => return publicRows
    | some user =>
      if superuser then return .always
      else if !r.selectsProject p then return publicRows
      else
        let project ← r.requireProject m AccessDenial.publicOrProjectCode
        return .mkAny [publicRows, memberRows project user]
  | .project => do
    let user ← requireUser identity
    r.checkTier m
    if !r.selectsProject p then throw .projectSelectorRequired
    if superuser then return .always
    return memberRows (← r.requireProject m AccessDenial.projectCode) user
  | .projectOrUser => do
    let user ← requireUser identity
    r.checkTier m
    if !r.selectsProject p then throw .projectSelectorRequired
    if superuser then return .always
    let project ← r.requireProject m AccessDenial.projectCode
    return .mkAny [ownedRows m user, memberRows project user]
  | .publicOrUser => do
    r.checkTier m
    match identity.userId? with
    | none => return publicRows
    | some user =>
      if superuser then return .always
      else return .mkAny [publicRows, ownedRows m user]
  | .private => do
    let user ← requireUser identity
    if superuser then return .always
    else return ownedRows m user

end Registry

end RowAccess

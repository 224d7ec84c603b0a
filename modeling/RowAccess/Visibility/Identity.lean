/-!
# Requesters

A requester is anonymous or a user with groups and permissions, as established before a request
is answered. The members of an app's superuser group hold every permission on the app.
-/

namespace RowAccess

/-- An authenticated principal. -/
structure User where
  id : Int
  username : String
  /-- A display name for audit fields. -/
  identifier : Option String := none
  groups : List String := []
  permissions : List String := []
  deriving DecidableEq, Repr

/-- Who makes a request. -/
inductive Identity where
  | anonymous
  | user (u : User)
  deriving DecidableEq, Repr

/-- The name of a permission: `app.action_model`. -/
def permissionName (app action model : String) : String :=
  app ++ "." ++ action ++ "_" ++ model

/-- The group whose members hold every permission on an app. -/
def superuserGroup (app : String) : String := app ++ "_superusers"

namespace User

def inGroup (u : User) (group : String) : Bool := u.groups.contains group

/-- Whether a user is a superuser of an app. -/
def isSuperuserOf (u : User) (app : String) : Bool := u.inGroup (superuserGroup app)

/-- Whether a user may act on a model. -/
def hasPermission (u : User) (app action model : String) : Bool :=
  u.isSuperuserOf app || u.permissions.contains (permissionName app action model)

/-- The name for audit fields: the identifier, unless it is missing or empty. -/
def auditName (u : User) : String :=
  match u.identifier with
  | some name => if name.isEmpty then u.username else name
  | none => u.username

end User

namespace Identity

def user? : Identity → Option User
  | anonymous => none
  | user u => some u

def isAuthenticated (i : Identity) : Bool := i.user?.isSome

/-- The id that owner fields are compared with. -/
def userId? (i : Identity) : Option Int := i.user?.map User.id

def inGroup (i : Identity) (group : String) : Bool := i.user?.any fun u ↦ u.inGroup group

def isSuperuserOf (i : Identity) (app : String) : Bool := i.user?.any fun u ↦ u.isSuperuserOf app

/-- Whether the requester may act on a model. -/
def hasPermission (i : Identity) (app action model : String) : Bool :=
  i.user?.any fun u ↦ u.hasPermission app action model

/-- The name for audit fields. -/
def auditName? (i : Identity) : Option String := i.user?.map User.auditName

end Identity

end RowAccess

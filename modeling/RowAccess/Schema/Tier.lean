/-!
# Visibility tiers

A model declares who may read its rows by naming one of seven tiers. A model that names none is
private.
-/

namespace RowAccess

/-- Who may read the rows of a model. -/
inductive Tier where
  /-- Anyone reads everything. -/
  | «public»
  /-- Any authenticated requester reads everything. -/
  | loggedIn
  /-- Public rows for everyone, and the rows of the selected project for its members. -/
  | publicOrProject
  /-- Rows of the selected project, for its members. -/
  | project
  /-- Owned rows, and the rows of the requester's projects. -/
  | projectOrUser
  /-- Public rows for everyone, and owned rows. -/
  | publicOrUser
  /-- Owned rows. -/
  | «private»
  deriving DecidableEq, Repr

namespace Tier

def all : List Tier :=
  [.public, .loggedIn, .publicOrProject, .project, .projectOrUser, .publicOrUser, .private]

/-- The name of a tier in schema declarations. -/
def name : Tier → String
  | .public => "public"
  | loggedIn => "logged_in"
  | publicOrProject => "public_or_project"
  | project => "project"
  | projectOrUser => "project_or_user"
  | publicOrUser => "public_or_user"
  | .private => "private"

def ofName? (name : String) : Option Tier := all.find? fun tier ↦ tier.name == name

/-- A tier that filters through the project model. -/
def needsProject : Tier → Bool
  | publicOrProject | project | projectOrUser => true
  | _ => false

/-- A tier that compares the owner field with the requester. -/
def readsOwner : Tier → Bool
  | projectOrUser | publicOrUser | .private => true
  | _ => false

theorem mem_all (tier : Tier) : tier ∈ all := by cases tier <;> decide

theorem ofName?_name (tier : Tier) : ofName? tier.name = some tier := by cases tier <;> decide

end Tier

end RowAccess

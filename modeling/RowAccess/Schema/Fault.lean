/-!
# Faults of a schema and denials of access

A request on a model is denied for one of four causes; two of them say that the model's own
declaration does not fit its tier. A schema is refused for one of nine causes, among them a tier
that could only be denied. Causes are data; their wording is one function each.
-/

namespace RowAccess

/-- Why a requester is denied the rows of a model. -/
inductive AccessDenial where
  | authenticationRequired
  | projectSelectorRequired
  /-- The model does not declare what its tier reads; the code names the tier. -/
  | incompatibleModel (code : Nat)
  /-- The model declares a tier that does not exist. -/
  | unknownTier (value : String)
  deriving DecidableEq, Repr

namespace AccessDenial

/-- The code of a `public_or_project` model without a public flag or a project. -/
def publicOrProjectCode : Nat := 10002

/-- The code of a `project` or `project_or_user` model without a project. -/
def projectCode : Nat := 10003

/-- The code of a `public_or_user` model without a public flag. -/
def publicOrUserCode : Nat := 10004

/-- The code of a model with an unknown tier. -/
def unknownTierCode : Nat := 10005

/-- The wording of a denial. -/
def message : AccessDenial → String
  | authenticationRequired => "Authentication required"
  | projectSelectorRequired => "Query not complete - Project must be specified"
  | incompatibleModel code =>
    "Internal server error - model configuration incompatible with API (code " ++
      toString code ++ ")"
  | unknownTier _ =>
    "Internal server error - model availability incompatible with API (code 10005)"

end AccessDenial

/-- Why a schema is refused. Models are named by the text of their key. -/
inductive SchemaFault where
  | unreadable (file : Option String) (problem : String)
  | fileNotFound (path : String)
  | invalidReference (value problem : String)
  | duplicateModel (model : String)
  | unknownTarget (model field target : String)
  | missingTarget (model field : String)
  | unknownField (model field context : String)
  | unusableTier (model : String) (cause : AccessDenial)
  | unusableProject (model project problem : String)
  deriving DecidableEq, Repr

namespace SchemaFault

/-- The wording of a fault. -/
def message : SchemaFault → String
  | unreadable none problem => "Failed to parse config: " ++ problem
  | unreadable (some file) problem => "Failed to parse config file '" ++ file ++ "': " ++ problem
  | fileNotFound path => "Configuration file not found: " ++ path
  | invalidReference value problem =>
    "Invalid model reference '" ++ value ++ "': " ++ problem
  | duplicateModel model => "Model " ++ model ++ " is declared twice"
  | unknownTarget model field target =>
    "Field '" ++ field ++ "' of " ++ model ++ " targets unknown model " ++ target
  | missingTarget model field =>
    "Field '" ++ field ++ "' of " ++ model ++ " is a relation without a target"
  | unknownField model field context =>
    context ++ " of " ++ model ++ " names undeclared field '" ++ field ++ "'"
  | unusableTier model cause => "Model " ++ model ++ ": " ++ cause.message
  | unusableProject model project problem =>
    "Model " ++ model ++ " needs project model " ++ project ++ ", which " ++ problem

end SchemaFault

end RowAccess

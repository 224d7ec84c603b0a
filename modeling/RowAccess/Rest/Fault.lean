import RowAccess.Store.Basic

/-!
# Faults of requests

Why a request is not carried out. A fault has a status, a code that stays the same whatever the
wording is, a message, and for some causes details that a client can read.
-/

namespace RowAccess

/-- The addressed model, row or item does not exist. -/
inductive EntityFault where
  | notFound (model id : String)
  | unknownModel (app model : String)
  | notManyToMany (model field : String)

/-- The body of a write is not acceptable. -/
inductive BodyFault where
  | notAnObject
  | unknownField (field : String)
  | missingRequired (fields : List String)
  | invalidValue (field problem : String)

/-- The request itself is not acceptable. -/
inductive RequestFault where
  | invalidHeader (header problem : String)
  | forbidden (problem : String)
  | preconditionFailed (expected actual : String)

/-- Why a request is not carried out. -/
inductive Fault where
  | access (cause : AccessDenial)
  | entity (cause : EntityFault)
  | schema (cause : SchemaFault)
  | body (cause : BodyFault)
  | store (cause : StoreFault)
  | request (cause : RequestFault)
  | internal (problem : String)

/-- The wording of an entity fault. -/
def EntityFault.message : EntityFault → String
  | notFound _ _ => "Item does not exist"
  | unknownModel app model => "Unknown model: " ++ app ++ "/" ++ model
  | notManyToMany model field =>
    "Field '" ++ field ++ "' of " ++ model ++ " is not a many-to-many relation"

/-- The wording of a body fault. -/
def BodyFault.message : BodyFault → String
  | notAnObject => "Request body must be a JSON object"
  | unknownField field => "Unknown field '" ++ field ++ "'"
  | missingRequired fields => "Missing required fields: " ++ String.intercalate ", " fields
  | invalidValue field problem => "Invalid value for field '" ++ field ++ "': " ++ problem

/-- The wording of a request fault. -/
def RequestFault.message : RequestFault → String
  | invalidHeader header problem => "Invalid header '" ++ header ++ "': " ++ problem
  | forbidden problem => "Forbidden: " ++ problem
  | preconditionFailed expected actual =>
    "Precondition failed: expected version " ++ expected ++ ", found " ++ actual

namespace Fault

/-- The wording of a fault. -/
def message : Fault → String
  | access cause => cause.message
  | entity cause => cause.message
  | schema cause => cause.message
  | body cause => cause.message
  | store cause => cause.message
  | request cause => cause.message
  | internal problem => "Internal error: " ++ problem

/-- The status of a fault. -/
def status : Fault → Nat
  | access .authenticationRequired => 401
  | access .projectSelectorRequired => 400
  | access (.incompatibleModel _) => 500
  | access (.unknownTier _) => 500
  | entity (.notFound _ _) => 404
  | entity (.unknownModel _ _) => 404
  | entity (.notManyToMany _ _) => 400
  | schema _ => 500
  | body _ => 400
  | store _ => 500
  | request (.invalidHeader _ _) => 400
  | request (.forbidden _) => 403
  | request (.preconditionFailed _ _) => 412
  | internal _ => 500

/-- The code of a fault. -/
def code : Fault → String
  | access .authenticationRequired => "AUTHENTICATION_REQUIRED"
  | access .projectSelectorRequired => "PROJECT_SELECTOR_REQUIRED"
  | access (.incompatibleModel _) => "SCHEMA_CONFIGURATION_ERROR"
  | access (.unknownTier _) => "UNKNOWN_AVAILABILITY_TIER"
  | entity (.notFound _ _) => "ITEM_NOT_FOUND"
  | entity (.unknownModel _ _) => "UNKNOWN_MODEL"
  | entity (.notManyToMany _ _) => "NOT_MANY_TO_MANY"
  | schema _ => "CONFIG_ERROR"
  | body _ => "VALIDATION_ERROR"
  | store _ => "STORAGE_ERROR"
  | request (.invalidHeader _ _) => "INVALID_HEADER"
  | request (.forbidden _) => "FORBIDDEN"
  | request (.preconditionFailed _ _) => "PRECONDITION_FAILED"
  | internal _ => "INTERNAL_ERROR"

/-- The details of a fault, if it has any. -/
def details? : Fault → Option Json
  | access (.incompatibleModel code) => some (.object [("diagnostic", .nat code)])
  | access (.unknownTier value) =>
    some (.object
      [("diagnostic", .nat AccessDenial.unknownTierCode), ("availability", .text value)])
  | entity (.notFound model id) => some (.object [("model", .text model), ("id", .text id)])
  | body (.missingRequired fields) => some (.object [("fields", .texts fields)])
  | _ => none

def toJson (f : Fault) : Json :=
  .object ([("code", .text f.code), ("message", .text f.message)] ++
    (f.details?.map fun details ↦ ("details", details)).toList)

end Fault

end RowAccess

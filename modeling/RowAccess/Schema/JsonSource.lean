import RowAccess.Json.Basic
import RowAccess.Schema.Source

/-!
# Declarations in JSON

JSON says the type of every scalar, so each wanted type takes exactly the values of that type. A
record may also be written as an array of its first fields. A declaration is written back with all
of its fields, in the order of their definition, defaults filled in.
-/

namespace RowAccess

mutual

/-- A JSON value as untyped data. -/
def Json.toPlain : Json → Plain
  | .null => .null
  | .bool b => .bool b
  | .number (.int n) => if 0 ≤ n then .nat n.toNat else .number
  | .number (.float _) => .number
  | .text s => .text s
  | .array items => .list (Json.toPlains items)
  | .object fields => .map (Json.toPlainEntries fields)

def Json.toPlains : List Json → List Plain
  | [] => []
  | item :: rest => item.toPlain :: Json.toPlains rest

def Json.toPlainEntries : List (String × Json) → List (Plain × Plain)
  | [] => []
  | (name, value) :: rest => (.text name, value.toPlain) :: Json.toPlainEntries rest

end

def Json.size? : Json → Option Nat
  | .number (.int n) => if 0 ≤ n then some n.toNat else none
  | _ => none

def Json.flag? : Json → Option Bool
  | .bool b => some b
  | _ => none

/-- Fields with their names as values. -/
def Json.entries (fields : List (String × Json)) : List (Json × Json) :=
  fields.map fun (name, value) ↦ (.text name, value)

def Json.entries? : Json → Option (List (Json × Json))
  | .object fields => some (entries fields)
  | _ => none

/-- The fields of an object, or of an array that gives them in order. -/
def Json.record? (names : List String) : Json → Option (List (Json × Json))
  | .object fields => some (entries fields)
  | .array items =>
    if items.length ≤ names.length then some (entries (names.zip items)) else none
  | _ => none

instance : Source Json where
  resolve := fun v ↦ pure v
  absent? := fun v ↦ some v.isNull
  text? := Json.asText?
  flag? := Json.flag?
  size? := Json.size?
  items? := Json.asArray?
  entries? := Json.entries?
  record? := Json.record?
  plain := fun v ↦ pure v.toPlain

/-- The settings that a value gives. It holds no references. -/
def Settings.ofJson? (v : Json) : Option Settings := (Settings.read v).run' 0

/-- The schema that a value declares. It holds no references. -/
def SchemaDeclaration.ofJson? (v : Json) : Option SchemaDeclaration :=
  (SchemaDeclaration.read v).run' 0

/-! ## Writing declarations -/

def Json.natOrNull : Option Nat → Json
  | some n => .nat n
  | none => .null

/-- Settings as a JSON value. -/
def Settings.toJson (s : Settings) : Json :=
  .object
    [("identity_model", .text s.identityModel),
      ("accept_bare_project_selector", .bool s.acceptBareProjectSelector),
      ("default_page_size", .natOrNull s.defaultPageSize),
      ("max_page_size", .natOrNull s.maxPageSize)]

/-- A field declaration as a JSON value, in the form it was given in. -/
def FieldDeclaration.toJson : FieldDeclaration → Json
  | bare kind => .text kind.name
  | detailed kind target => .object [("type", .text kind.name), ("to", .textOrNull target)]

/-- A model declaration as a JSON value. -/
def ModelDeclaration.toJson (d : ModelDeclaration) : Json :=
  .object
    [("name", .text d.name), ("availability", .textOrNull d.tier),
      ("fields", .object (d.fields.entries.map fun (name, field) ↦ (name, field.toJson))),
      ("required_fields", .texts d.requiredFields),
      ("serialization_fields", (d.shownFields.map Json.texts).getD .null),
      ("owner_field", .textOrNull d.ownerField), ("project_app", .textOrNull d.projectApp),
      ("user_fields", .texts d.userFields)]

def AppDeclaration.toJson (d : AppDeclaration) : Json :=
  .object [("name", .text d.name), ("models", .array (d.models.map ModelDeclaration.toJson))]

def SchemaDeclaration.toJson (d : SchemaDeclaration) : Json :=
  .object [("settings", d.settings.toJson), ("apps", .array (d.apps.map AppDeclaration.toJson))]

end RowAccess

import RowAccess.Schema.Declaration

/-!
# Reading declarations

Declarations are written in data formats that agree on their shape but not on what a scalar is: a
format may take a number where a text is wanted, or an empty value where a list is. A `Source`
says how one format answers when a value of a certain type is wanted; the reader of declarations
is written once, over any source.

A format may let a value stand for another one. Such references are followed as they are met, and
only so often: a document that is short but refers to itself many times over is refused before it
grows out of bounds.

A field declaration is a kind or a mapping, so its value is first read as data of whatever type it
has (`Plain`), without regard to what is wanted.
-/

namespace RowAccess

/-- Data as its format types it. Numbers other than unsigned 64-bit integers need no value. -/
inductive Plain where
  | null
  | bool (b : Bool)
  | nat (n : Nat)
  | number
  | text (s : String)
  | list (items : List Plain)
  | map (entries : List (Plain × Plain))

/-- A reading that may fail, with how many references to other values it may still follow. -/
abbrev Decode (β : Type) := StateT Nat Option β

/-- How values of a format are read as values of a wanted type. Everything but `resolve` and
`plain` is asked of a value that is no reference. -/
class Source (α : Type) where
  /-- The value that a reference stands for; any other value is itself. -/
  resolve : α → Decode α
  /-- Whether the value stands for an absent optional one. -/
  absent? : α → Option Bool
  text? : α → Option String
  flag? : α → Option Bool
  size? : α → Option Nat
  items? : α → Option (List α)
  /-- The entries of a mapping. -/
  entries? : α → Option (List (α × α))
  /-- The entries of a value with a fixed set of fields, given in their order. -/
  record? : List String → α → Option (List (α × α))
  plain : α → Decode Plain

namespace Source

variable {α β : Type} [Source α]

def text (v : α) : Decode String := do
  text? (← resolve v)

def flag (v : α) : Decode Bool := do
  flag? (← resolve v)

def size (v : α) : Decode Nat := do
  size? (← resolve v)

def optional (read : α → Decode β) (v : α) : Decode (Option β) := do
  let v ← resolve v
  if ← absent? v then return none else return some (← read v)

def list (read : α → Decode β) (v : α) : Decode (List β) := do
  let items ← items? (← resolve v)
  items.mapM read

/-- Entries whose keys are texts. -/
def named (entries : List (α × α)) : Decode (List (String × α)) :=
  entries.mapM fun (key, value) ↦ do return (← text key, value)

/-- A mapping with text keys. -/
def mapping (v : α) : Decode (List (String × α)) := do
  named (← entries? (← resolve v))

/-- A record whose fields are given at most once each. Other entries do not count. -/
def record (names : List String) (v : α) : Decode (List (String × α)) := do
  let entries ← named (← record? names (← resolve v))
  let known := entries.filter fun (name, _) ↦ names.contains name
  if (known.map Prod.fst).Nodup then return known else failure

/-- A field of a record that must be there. -/
def required (fields : List (String × α)) (name : String) (read : α → Decode β) : Decode β :=
  match fields.lookup name with
  | some v => read v
  | none => failure

/-- A field of a record with a default. -/
def withDefault (fields : List (String × α)) (name : String) (default : β)
    (read : α → Decode β) : Decode β :=
  match fields.lookup name with
  | some v => read v
  | none => return default

end Source

namespace Plain

/-- A kind: its name, or a mapping from the name, or from the place of the kind among all kinds,
to null. -/
def kind? : Plain → Option FieldKind
  | text s => FieldKind.ofName? s
  | map [(text s, null)] => FieldKind.ofName? s
  | map [(nat n, null)] => FieldKind.all[n]?
  | _ => none

/-- The name of an entry of a detailed field declaration, given by itself or by its place. -/
def entryName? : Plain → Option String
  | text s => some s
  | nat 0 => some "type"
  | nat 1 => some "to"
  | nat _ => some ""
  | _ => none

/-- An optional target. -/
def target? : Plain → Option (Option String)
  | null => some none
  | text s => some (some s)
  | _ => none

/-- A detailed field declaration. -/
def detailed? : Plain → Option FieldDeclaration
  | map entries => do
    let named ← entries.mapM fun (key, value) ↦ do return (← key.entryName?, value)
    let known := named.filter fun (name, _) ↦ name == "type" || name == "to"
    if !(known.map Prod.fst).Nodup then none
    else
      let kind ← (← known.lookup "type").kind?
      let target ← match known.lookup "to" with
        | some value => value.target?
        | none => some none
      return .detailed kind target
  | _ => none

/-- A field declaration of either form. -/
def field? (p : Plain) : Option FieldDeclaration :=
  match p.kind? with
  | some kind => some (.bare kind)
  | none => p.detailed?

end Plain

section Readers

open Source

variable {α : Type} [Source α]

/-- Settings; every one of them has a default. -/
def Settings.read (v : α) : Decode Settings := do
  let fields ← record
    ["identity_model", "accept_bare_project_selector", "default_page_size", "max_page_size"] v
  let initial : Settings := {}
  return {
    identityModel := ← withDefault fields "identity_model" initial.identityModel text
    acceptBareProjectSelector := ← withDefault fields "accept_bare_project_selector" true flag
    defaultPageSize := ← withDefault fields "default_page_size" none (optional size)
    maxPageSize := ← withDefault fields "max_page_size" none (optional size) }

/-- The declarations of the fields of a model. -/
def FieldDeclaration.readAll (v : α) : Decode (Ordered FieldDeclaration) := do
  let entries ← (← mapping v).mapM fun (name, value) ↦ do
    return (name, ← (← plain value).field?)
  return .ofList entries

/-- The declaration of a model. -/
def ModelDeclaration.read (v : α) : Decode ModelDeclaration := do
  let fields ← record
    ["name", "availability", "fields", "required_fields", "serialization_fields", "owner_field",
      "project_app", "user_fields"] v
  return {
    name := ← required fields "name" text
    tier := ← withDefault fields "availability" none (optional text)
    fields := ← withDefault fields "fields" .empty FieldDeclaration.readAll
    requiredFields := ← withDefault fields "required_fields" [] (list text)
    shownFields := ← withDefault fields "serialization_fields" none (optional (list text))
    ownerField := ← withDefault fields "owner_field" none (optional text)
    projectApp := ← withDefault fields "project_app" none (optional text)
    userFields := ← withDefault fields "user_fields" [] (list text) }

/-- The declaration of an app. -/
def AppDeclaration.read (v : α) : Decode AppDeclaration := do
  let fields ← record ["name", "models"] v
  return {
    name := ← required fields "name" text
    models := ← withDefault fields "models" [] (list ModelDeclaration.read) }

/-- The declaration of a schema. -/
def SchemaDeclaration.read (v : α) : Decode SchemaDeclaration := do
  let fields ← record ["settings", "apps"] v
  return {
    settings := ← withDefault fields "settings" {} Settings.read
    apps := ← required fields "apps" (list AppDeclaration.read) }

end Readers

end RowAccess

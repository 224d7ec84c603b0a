/-!
# Kinds of fields

The semantic type of a model field. It decides which operators a filter on the field may use;
relations point at another model and are never compared themselves.
-/

namespace RowAccess

/-- The semantic type of a field. -/
inductive FieldKind where
  | char
  | text
  | json
  | integer
  | date
  | dateTime
  | boolean
  | nullBoolean
  | array
  | auto
  | foreignKey
  | manyToMany
  deriving DecidableEq, Repr

namespace FieldKind

def all : List FieldKind :=
  [.char, .text, .json, .integer, .date, .dateTime, .boolean, .nullBoolean, .array, .auto,
    .foreignKey, .manyToMany]

/-- The name of a kind in schema declarations. -/
def name : FieldKind → String
  | char => "char"
  | text => "text"
  | json => "json"
  | integer => "integer"
  | date => "date"
  | dateTime => "datetime"
  | boolean => "boolean"
  | nullBoolean => "null_boolean"
  | array => "array"
  | auto => "auto"
  | foreignKey => "foreign_key"
  | manyToMany => "many_to_many"

def ofName? (name : String) : Option FieldKind := all.find? fun kind ↦ kind.name == name

/-- A kind that points at another model. -/
def isRelation : FieldKind → Bool
  | foreignKey | manyToMany => true
  | _ => false

/-- A kind that accepts the text operators. -/
def isTextLike : FieldKind → Bool
  | char | text | json => true
  | _ => false

/-- A kind that holds a flag. -/
def isFlag : FieldKind → Bool
  | boolean | nullBoolean => true
  | _ => false

theorem mem_all (kind : FieldKind) : kind ∈ all := by cases kind <;> decide

theorem ofName?_name (kind : FieldKind) : ofName? kind.name = some kind := by
  cases kind <;> decide

end FieldKind

end RowAccess

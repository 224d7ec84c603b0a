import RowAccess.Condition.Predicate

/-!
# Predicates as JSON

The form in which predicates are shown to programs: an object that names the operator and, unless
the predicate is trivial, holds its arguments.
-/

namespace RowAccess

def Condition.toJson (c : Condition) : Json :=
  .object
    [("field", .text c.path), ("lookup", .text c.lookup.name), ("value", c.operand.toJson)]

namespace Predicate

def encodeOperator (name : String) (arguments : Json) : Json :=
  .object [("op", .text name), ("args", arguments)]

mutual

/-- A predicate as a JSON value. -/
def toJson : Predicate → Json
  | .always => .object [("op", .text "always")]
  | .leaf c => encodeOperator "leaf" c.toJson
  | .all parts => encodeOperator "and" (.array (toJsonParts parts))
  | .any parts => encodeOperator "or" (.array (toJsonParts parts))
  | .not part => encodeOperator "not" part.toJson

def toJsonParts : List Predicate → List Json
  | [] => []
  | part :: rest => part.toJson :: toJsonParts rest

end

end Predicate

end RowAccess

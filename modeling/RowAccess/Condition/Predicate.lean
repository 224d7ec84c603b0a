import RowAccess.Condition.Operand
import RowAccess.Text.Split

/-!
# Conditions and predicates

A condition is one comparison: a field path, a lookup and an operand. A predicate is a tree of
conditions under conjunction, disjunction and negation. Trees are built with constructors that keep
them small: a conjunction inside a conjunction is merged into it, and so for disjunctions, trivial
parts are dropped, and a conjunction or disjunction of one part is that part.
-/

namespace RowAccess

/-- How a condition compares. -/
inductive Lookup where
  | exact
  | iExact
  | startsWith
  | iStartsWith
  | endsWith
  | iEndsWith
  | contains
  | iContains
  | gt
  | gte
  | lt
  | lte
  /-- An array has as many items as the operand says. -/
  | lenEq
  /-- An array has more items than the operand says. -/
  | lenGt
  /-- An array contains every item of the operand. -/
  | arrayContains
  deriving DecidableEq, Repr

namespace Lookup

def all : List Lookup :=
  [.exact, .iExact, .startsWith, .iStartsWith, .endsWith, .iEndsWith, .contains, .iContains, .gt,
    .gte, .lt, .lte, .lenEq, .lenGt, .arrayContains]

/-- The name of a lookup. -/
def name : Lookup → String
  | exact => "exact"
  | iExact => "i_exact"
  | startsWith => "starts_with"
  | iStartsWith => "i_starts_with"
  | endsWith => "ends_with"
  | iEndsWith => "i_ends_with"
  | contains => "contains"
  | iContains => "i_contains"
  | gt => "gt"
  | gte => "gte"
  | lt => "lt"
  | lte => "lte"
  | lenEq => "len_eq"
  | lenGt => "len_gt"
  | arrayContains => "array_contains"

def ofName? (name : String) : Option Lookup := all.find? fun lookup ↦ lookup.name == name

/-- What a lookup adds to a field path when a condition is shown. -/
def suffix : Lookup → String
  | exact => ""
  | iExact => "__iexact"
  | startsWith => "__startswith"
  | iStartsWith => "__istartswith"
  | endsWith => "__endswith"
  | iEndsWith => "__iendswith"
  | contains => "__contains"
  | iContains => "__icontains"
  | gt => "__gt"
  | gte => "__gte"
  | lt => "__lt"
  | lte => "__lte"
  | lenEq => "__len"
  | lenGt => "__len__gt"
  | arrayContains => "__contains"

end Lookup

/-! ## Field paths -/

/-- The segments of a field path, which are separated by a doubled underscore. -/
def pathSegments (path : String) : List String :=
  (Text.splitOnDouble '_' path.toList).map String.ofList

/-- The path of a list of segments. -/
def joinPath (segments : List String) : String := String.intercalate "__" segments

/-- The first segment of a field path. -/
def pathRoot (path : String) : String := (pathSegments path).headD path

/-! ## Conditions -/

/-- One comparison of the values a field path leads to. -/
structure Condition where
  path : String
  lookup : Lookup
  operand : Operand

namespace Condition

def root (c : Condition) : String := pathRoot c.path

def render (c : Condition) : String := c.path ++ c.lookup.suffix ++ "=" ++ c.operand.render

end Condition

/-! ## Predicates -/

/-- A tree of conditions. -/
inductive Predicate where
  /-- Holds of every row. -/
  | always
  | leaf (condition : Condition)
  | all (parts : List Predicate)
  | any (parts : List Predicate)
  | not (part : Predicate)

namespace Predicate

instance : Inhabited Predicate := ⟨.always⟩

def compare (path : String) (lookup : Lookup) (operand : Operand) : Predicate :=
  .leaf ⟨path, lookup, operand⟩

def eq (path : String) (operand : Operand) : Predicate := compare path .exact operand

/-- What a part contributes to a conjunction: nothing if it is trivial, its own parts if it is a
conjunction, else itself. -/
def conjuncts : Predicate → List Predicate
  | .always => []
  | .all parts => parts
  | part => [part]

/-- The conjunction of several parts. -/
def mkAll (parts : List Predicate) : Predicate :=
  match parts.flatMap conjuncts with
  | [] => .always
  | [part] => part
  | flat => .all flat

/-- What a part contributes to a disjunction: its own parts if it is a disjunction, else itself. -/
def disjuncts : Predicate → List Predicate
  | .any parts => parts
  | part => [part]

/-- Whether a predicate places no restriction. -/
def isAlways : Predicate → Bool
  | .always => true
  | _ => false

/-- The disjunction of several parts. A trivial part makes it trivial; without parts it holds of
no row. -/
def mkAny (parts : List Predicate) : Predicate :=
  if parts.any isAlways then .always
  else
    match parts.flatMap disjuncts with
    | [part] => part
    | flat => .any flat

def and (p q : Predicate) : Predicate := mkAll [p, q]

mutual

/-- All conditions of a predicate, from left to right. -/
def conditions : Predicate → List Condition
  | .always => []
  | .leaf c => [c]
  | .all parts => conditionsOf parts
  | .any parts => conditionsOf parts
  | .not part => part.conditions

def conditionsOf : List Predicate → List Condition
  | [] => []
  | part :: rest => part.conditions ++ conditionsOf rest

end

mutual

/-- The text that shows a predicate. -/
def render : Predicate → String
  | .always => "TRUE"
  | .leaf c => c.render
  | .all parts => "AND(" ++ String.intercalate ", " (renderParts parts) ++ ")"
  | .any parts => "OR(" ++ String.intercalate ", " (renderParts parts) ++ ")"
  | .not part => "NOT(" ++ part.render ++ ")"

def renderParts : List Predicate → List String
  | [] => []
  | part :: rest => part.render :: renderParts rest

end

end Predicate

/-! ## Predicates with further steps -/

/-- A predicate and further ones that are applied each on its own. Repeated constraints on one
many-to-many relation are kept apart, so that different related rows may meet them. -/
structure PredicateList where
  primary : Predicate := .always
  auxiliary : List Predicate := []

namespace PredicateList

def isEmpty (l : PredicateList) : Bool := l.primary.isAlways && l.auxiliary.isEmpty

/-- The number of predicates, the primary one included. -/
def size (l : PredicateList) : Nat := 1 + l.auxiliary.length

end PredicateList

end RowAccess

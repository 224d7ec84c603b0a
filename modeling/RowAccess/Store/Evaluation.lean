import RowAccess.Condition.Comparison
import RowAccess.Query.Plan
import RowAccess.Store.Basic

/-!
# Evaluating predicates

A field path leads from a row to the values it reaches: relations are followed to every related
row, so a condition holds if some reached value satisfies it. Within one predicate the conditions
on one many-to-many relation speak of the same related row. A relation with two or more such
conditions is joined: the predicate holds if some choice of a related row for every joined relation
makes it true. A relation with a single condition needs no choice, since the condition already asks
for some related row; and below a negation no choice is seen, so that a negated condition speaks of
all related rows.
-/

namespace RowAccess

/-- The related id that is chosen for a relation; a relation without related rows is given none. -/
abbrev Choice := Option Json

/-- The ids that a relation field holds: the items of an array that are not null, or the one value
that is not an array. -/
def relatedIds : Json → List Json
  | .null => []
  | .array items => items.filter fun v ↦ !v.isNull
  | value => [value]

/-- The related ids from which a path through a relation goes on: those of its choice, which only
a many-to-many relation has, or else all that the field holds. -/
def idsUnder (kind : FieldKind) (choice? : Option Choice) (stored : Json) : List Json :=
  match kind, choice? with
  | .manyToMany, some choice => choice.toList
  | _, _ => relatedIds stored

namespace Store

/-- The values that a path reaches from a row. Choices apply to the first relation of the path
only; of the identity model nothing but its `id` is known. -/
def reached (s : Store) (m : Model) (row : Row) (choices : List (String × Choice)) :
    (segments : List String) → List Json
  | [] => []
  | first :: rest =>
    let stored := row.valueOf first
    let relation := (m.field? first).filter fun spec ↦ spec.kind.isRelation
    match relation with
    | none => if rest.isEmpty then [stored] else []
    | some spec =>
      let ids := idsUnder spec.kind (choices.lookup first) stored
      if rest.isEmpty then ids
      else
        match spec.target with
        | none => []
        | some target =>
          if s.registry.isIdentity target then (if rest = ["id"] then ids else [])
          else
            match s.registry.get? target, s.table? target with
            | some m', some t =>
              ids.flatMap fun id ↦
                match id.asInt64?.bind t.get? with
                | some row' => s.reached m' row' [] rest
                | none => []
            | _, _ => []

/-- Whether a condition holds of a row: of some value it reaches, or of null if it reaches none. -/
def meets (s : Store) (m : Model) (row : Row) (choices : List (String × Choice))
    (c : Condition) : Bool :=
  match s.reached m row choices (pathSegments c.path) with
  | [] => c.holdsOf .null
  | values => values.any c.holdsOf

mutual

/-- Whether a predicate holds of a row under choices of related rows. -/
def satisfies (s : Store) (m : Model) (row : Row) (choices : List (String × Choice)) :
    Predicate → Bool
  | .always => true
  | .leaf c => s.meets m row choices c
  | .all parts => s.satisfiesAll m row choices parts
  | .any parts => s.satisfiesAny m row choices parts
  | .not part => !s.satisfies m row [] part

def satisfiesAll (s : Store) (m : Model) (row : Row) (choices : List (String × Choice)) :
    List Predicate → Bool
  | [] => true
  | part :: rest => s.satisfies m row choices part && s.satisfiesAll m row choices rest

def satisfiesAny (s : Store) (m : Model) (row : Row) (choices : List (String × Choice)) :
    List Predicate → Bool
  | [] => false
  | part :: rest => s.satisfies m row choices part || s.satisfiesAny m row choices rest

end

end Store

/-! ## Joined relations -/

/-- Put a name in its place among sorted names. -/
def insertName (name : String) : List String → List String
  | [] => [name]
  | next :: rest =>
    if compare name next = .gt then next :: insertName name rest else name :: next :: rest

/-- Note a name that equals its next one, unless it was the last to be noted. -/
def noteRepeated (noted : List String) (neighbours : String × String) : List String :=
  if neighbours.1 = neighbours.2 ∧ noted.getLast? ≠ some neighbours.1 then
    noted ++ [neighbours.1]
  else noted

namespace Predicate

mutual

/-- The conditions of a predicate that are not below a negation, from left to right. -/
def positive : Predicate → List Condition
  | .always => []
  | .leaf c => [c]
  | .all parts => positiveOf parts
  | .any parts => positiveOf parts
  | .not _ => []

/-- The conditions of several predicates that are not below a negation, from left to right. -/
def positiveOf : List Predicate → List Condition
  | [] => []
  | part :: rest => part.positive ++ positiveOf rest

end

/-- The many-to-many relations that two or more conditions outside of negations begin with: those
that stand next to each other once they are sorted. -/
def joinedRoots (m : Model) (p : Predicate) : List String :=
  let sorted := ((p.positive.map Condition.root).filter m.isManyToMany).foldr insertName []
  (sorted.zip sorted.tail).foldl noteRepeated []

end Predicate

namespace Row

/-- The choices for a relation of a row: one of its related ids, or none if it has none. -/
def choicesFor (row : Row) (root : String) : List Choice :=
  match relatedIds (row.valueOf root) with
  | [] => [none]
  | ids => ids.map some

end Row

namespace Store

/-- Whether some choice for each of several relations makes a predicate true. -/
def someChoice (s : Store) (m : Model) (row : Row) (p : Predicate) :
    (roots : List String) → (choices : List (String × Choice)) → Bool
  | [], choices => s.satisfies m row choices p
  | root :: rest, choices =>
    (row.choicesFor root).any fun choice ↦ s.someChoice m row p rest ((root, choice) :: choices)

/-- Whether a predicate holds of a row of a model. -/
def holds (s : Store) (m : Model) (row : Row) (p : Predicate) : Bool :=
  s.someChoice m row p (p.joinedRoots m) []

/-- Whether a step of a plan keeps a row. -/
def keeps (s : Store) (m : Model) (row : Row) : Step → Bool
  | .include p => s.holds m row p
  | .exclude p => !s.holds m row p

end Store

end RowAccess

import RowAccess.Query.Grammar
import RowAccess.Query.Parameters
import RowAccess.Query.Typing

/-!
# From parameters to conditions

Every filter key with a kind contributes the conditions of its values, in the order of the
request. A value that begins with an exclamation mark excludes rows, every other value selects
them; a value with a comma is a list of alternatives and only selects. The contributions of one
side form a conjunction, except that a second value of a key on a many-to-many relation stands on
its own: it may be met by another related row than the first.
-/

namespace RowAccess

/-- The side of a query that is compiled. -/
inductive FilterMode where
  | filter
  | exclude
  deriving DecidableEq, Repr

/-- What one value contributes. -/
inductive Contribution where
  /-- Nothing. -/
  | nothing
  /-- A part of the conjunction. -/
  | joined (predicate : Predicate)
  /-- A single condition, which stands on its own if it is not the first value of a key on a
  many-to-many relation. -/
  | single (predicate : Predicate)

/-- The mark of a value that excludes rows. -/
def negationMark : Char := '!'

/-- The mark between alternatives. -/
def alternativeMark : Char := ','

/-- The alternatives of a value that are conditions. -/
def compileAlternatives (kind : Option FieldKind) (key value : String) : List Predicate :=
  ((Text.splitOn alternativeMark value.toList).filter fun part ↦ !part.isEmpty).filterMap
    fun part ↦ compileValue kind key (String.ofList part)

/-- What a value of a key contributes to a side of the query. -/
def contribution (mode : FilterMode) (kind : Option FieldKind) (key value : String) :
    Contribution :=
  let single : Option Predicate → Contribution
    | some leaf => .single leaf
    | none => .nothing
  if value.toList.contains alternativeMark then
    match mode, compileAlternatives kind key value with
    | .exclude, _ | .filter, [] => .nothing
    | .filter, alternatives => .joined (.mkAny alternatives)
  else
    match mode, value.toList with
    | .exclude, c :: rest =>
      if c = negationMark then single (compileValue kind key (String.ofList rest)) else .nothing
    | .exclude, [] => .nothing
    | .filter, c :: _ => if c = negationMark then .nothing else single (compileValue kind key value)
    | .filter, [] => .nothing

namespace PredicateList

def join (l : PredicateList) (p : Predicate) : PredicateList :=
  { l with primary := l.primary.and p }

def append (l : PredicateList) (p : Predicate) : PredicateList :=
  { l with auxiliary := l.auxiliary ++ [p] }

/-- Add a contribution; `apart` says whether single conditions stand on their own. -/
def contribute (l : PredicateList) (apart : Bool) : Contribution → PredicateList
  | .nothing => l
  | .joined p => l.join p
  | .single p => if apart then l.append p else l.join p

/-- Add the contributions of the values of a key. -/
def contributeValues (l : PredicateList) (mode : FilterMode) (kind : Option FieldKind)
    (manyToMany : Bool) (key : String) (values : List String) : PredicateList :=
  values.zipIdx.foldl
    (fun l (value, index) ↦
      l.contribute (manyToMany && 0 < index) (contribution mode kind key value))
    l

end PredicateList

/-- The conditions that the parameters of a request place on the rows of a model. Keys without a
kind do not count. -/
def compileParameters (p : Parameters) (r : Registry) (m : Model) (mode : FilterMode) :
    PredicateList :=
  p.filters.foldl
    (fun l (key, values) ↦
      match r.filterKind? m key with
      | none => l
      | some kind => l.contributeValues mode (some kind) (m.isManyToMany (pathRoot key)) key values)
    {}

end RowAccess

import RowAccess.Condition.Encoding
import RowAccess.Query.Parameters

/-!
# Query plans

A plan is a sequence of steps, each of which keeps or drops rows by a predicate of its own, and an
ordering of the rows that are left. What a requester may see and what a request asks for meet in
the first step: as a conjunction, so that no filter can show more than the visibility allows.
-/

namespace RowAccess

/-- One step of a plan. -/
inductive Step where
  /-- Keep the rows that satisfy a predicate. -/
  | include (predicate : Predicate)
  /-- Drop the rows that satisfy a predicate. -/
  | exclude (predicate : Predicate)

namespace Step

def predicate : Step → Predicate
  | .include p => p
  | .exclude p => p

def toJson : Step → Json
  | .include p => .object [("step", .text "include"), ("predicate", p.toJson)]
  | .exclude p => .object [("step", .text "exclude"), ("predicate", p.toJson)]

end Step

/-- The steps that select rows and the keys that order them. -/
structure Plan where
  steps : List Step
  sort : List SortKey := []

namespace Plan

def matching (p : Predicate) : Plan := { steps := [.include p] }

def all : Plan := matching .always

/-- What a list of excluding predicates adds to the first step: nothing if it excludes nothing. -/
def exclusion (p : Predicate) : List Predicate := if p.isAlways then [] else [.not p]

/-- The plan of the rows that are visible, meet the filters and meet no exclusion. -/
def combine (visibility : Predicate) (filter exclude : PredicateList) : Plan where
  steps :=
    .include (.mkAll (visibility :: filter.primary :: exclusion exclude.primary)) ::
      filter.auxiliary.map .include ++ exclude.auxiliary.map .exclude

/-- A plan as a JSON value. No step yields a row twice, so every result is distinct. -/
def toJson (plan : Plan) : Json :=
  .object
    [("constraints", .array (plan.steps.map Step.toJson)), ("distinct", .bool true),
      ("sort", .array (plan.sort.map SortKey.toJson))]

end Plan

end RowAccess

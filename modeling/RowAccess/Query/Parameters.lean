import RowAccess.Json.Basic
import RowAccess.Text.Split

/-!
# Query parameters

The pairs of a query string, gathered by key. A key that is repeated keeps all its values, and
keys stay in the order in which they were first seen, which is the order of the conditions they
are compiled to. `offset`, `limit` and every key that begins with an underscore are reserved: they
choose a window, an order or the shown fields and are never filters.
-/

namespace RowAccess

/-- One key of an ordering. -/
structure SortKey where
  field : String
  descending : Bool := false
  deriving DecidableEq, Repr

/-- A leading hyphen asks for descending order. -/
def SortKey.parse (s : String) : SortKey :=
  match s.toList with
  | '-' :: field => ⟨String.ofList field, true⟩
  | _ => ⟨s, false⟩

def SortKey.toJson (key : SortKey) : Json :=
  .object [("field", .text key.field), ("descending", .bool key.descending)]

/-- The values of a query, gathered by key. -/
structure Parameters where
  values : Ordered (List String) := .empty

namespace Parameters

def all (p : Parameters) (key : String) : List String := (p.values.get? key).getD []

def first? (p : Parameters) (key : String) : Option String := (p.all key).head?

def contains (p : Parameters) (key : String) : Bool := p.values.contains key

def push (p : Parameters) (key value : String) : Parameters :=
  ⟨p.values.insert key (p.all key ++ [value])⟩

/-- The parameters of the pairs of a query string. -/
def ofPairs (pairs : List (String × String)) : Parameters :=
  pairs.foldl (fun p (key, value) ↦ p.push key value) {}

/-- Whether a key is never a filter. -/
def isReserved (key : String) : Bool :=
  key == "offset" || key == "limit" || key.toList.head? == some '_'

/-- The keys that may be filters, with their values. -/
def filters (p : Parameters) : List (String × List String) :=
  (p.values.filterKeys fun key ↦ !isReserved key).entries

/-- A number that is given by a key; a value that is no number counts as absent. -/
def size? (p : Parameters) (key : String) : Option Nat :=
  (p.first? key).bind fun value ↦ Text.readNat64? (Text.trim value)

def offset? (p : Parameters) : Option Nat := p.size? "offset"

def limit? (p : Parameters) : Option Nat := p.size? "limit"

def fields? (p : Parameters) : Option (List String) := (p.first? "_fields").map Text.commaList

def sort (p : Parameters) : List SortKey :=
  match p.first? "_sort" with
  | some value => (Text.commaList value).map SortKey.parse
  | none => []

def show? (p : Parameters) : Option String := p.first? "_show"

/-- Whether a project is selected by its full path. -/
def selectsProject (p : Parameters) : Bool := p.contains "project__id"

/-- Whether a project is selected by the bare relation. -/
def selectsProjectBare (p : Parameters) : Bool := p.contains "project"

end Parameters

end RowAccess

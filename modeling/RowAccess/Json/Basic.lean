import RowAccess.Number.Binary64
import RowAccess.Ordered
import RowAccess.Text.Integer

/-!
# JSON values

The values of stored fields and of request and response bodies. Integers below `2 ^ 64` keep
their kind, everything else numeric is double precision. Objects keep the order in which their
keys were first written, but two objects are the same value when they have the same keys with the
same values, in any order.
-/

namespace RowAccess

/-- A JSON number: an integer in `[-2 ^ 63, 2 ^ 64)` or a finite double precision number. -/
inductive Number where
  | int (n : Int)
  | float (x : Binary64)
  deriving DecidableEq, Repr

namespace Number

/-- The number as a signed integer of 64 bits; a float never is one. -/
def asInt64? : Number → Option Int
  | .int n => if Text.isInt64 n then some n else none
  | .float _ => none

/-- The nearest double precision number. -/
def toBinary64 : Number → Binary64
  | .int n => Binary64.ofInt n
  | .float x => x

/-- Equality of numbers of one kind; an integer is never the same as a float. -/
def same : Number → Number → Bool
  | .int a, .int b => a == b
  | .float x, .float y => x.same y
  | _, _ => false

end Number

/-- A JSON value. -/
inductive Json where
  | null
  | bool (b : Bool)
  | number (n : Number)
  | text (s : String)
  | array (items : List Json)
  | object (fields : List (String × Json))

namespace Json

instance : Inhabited Json := ⟨.null⟩

def int (n : Int) : Json := .number (.int n)

def nat (n : Nat) : Json := .int n

def texts (items : List String) : Json := .array (items.map .text)

def textOrNull : Option String → Json
  | some s => .text s
  | none => .null

/-- The signed 64-bit integer that a value is, if it is one. -/
def asInt64? : Json → Option Int
  | .number n => n.asInt64?
  | _ => none

def isInt64 (v : Json) : Bool := v.asInt64?.isSome

theorem asInt64?_eq_some_iff {value : Json} {n : Int} :
    value.asInt64? = some n ↔ Text.isInt64 n = true ∧ value = .int n := by
  cases value with
  | number k =>
    cases k with
    | int k =>
      rw [asInt64?, Number.asInt64?, Option.ite_none_right_eq_some]
      constructor
      · rintro ⟨hrange, hk⟩
        obtain rfl := Option.some.inj hk
        exact ⟨hrange, rfl⟩
      · rintro ⟨hrange, hk⟩
        obtain rfl := Number.int.inj (Json.number.inj hk)
        exact ⟨hrange, rfl⟩
    | float x => exact ⟨nofun, fun h ↦ nomatch h.2⟩
  | null => exact ⟨nofun, fun h ↦ nomatch h.2⟩
  | bool b => exact ⟨nofun, fun h ↦ nomatch h.2⟩
  | text t => exact ⟨nofun, fun h ↦ nomatch h.2⟩
  | array items => exact ⟨nofun, fun h ↦ nomatch h.2⟩
  | object fields => exact ⟨nofun, fun h ↦ nomatch h.2⟩

theorem asInt64?_int_eq_some_iff {k n : Int} :
    (int k).asInt64? = some n ↔ Text.isInt64 n = true ∧ k = n := by
  rw [asInt64?_eq_some_iff, int, int, number.injEq, Number.int.injEq]

def asArray? : Json → Option (List Json)
  | .array items => some items
  | _ => none

def asText? : Json → Option String
  | .text s => some s
  | _ => none

def isNull : Json → Bool
  | .null => true
  | _ => false

mutual

/-- Equality of values; the order of object keys does not matter. -/
def same : Json → Json → Bool
  | .null, .null => true
  | .bool a, .bool b => a == b
  | .number a, .number b => a.same b
  | .text a, .text b => a == b
  | .array as, .array bs => sameItems as bs
  | .object fields, .object others =>
    fields.length == others.length && sameFields fields others
  | _, _ => false

def sameItems : List Json → List Json → Bool
  | [], [] => true
  | a :: as, b :: bs => a.same b && sameItems as bs
  | _, _ => false

/-- Whether every field is present with the same value among the others. -/
def sameFields : List (String × Json) → List (String × Json) → Bool
  | [], _ => true
  | (name, value) :: rest, others =>
    (match others.lookup name with
      | some other => value.same other
      | none => false) && sameFields rest others

end

end Json

/-- One stored row: the values of its fields. A foreign key holds the id of its target, a
many-to-many field an array of ids. -/
abbrev Row := Ordered Json

namespace Row

/-- The integer in the field `id`, if there is one. -/
def id? (row : Row) : Option Int := (row.get? "id").bind Json.asInt64?

/-- The value of a field, null if it is missing. -/
def valueOf (row : Row) (name : String) : Json := (row.get? name).getD .null

def toJson (row : Row) : Json := .object row.entries

end Row

end RowAccess

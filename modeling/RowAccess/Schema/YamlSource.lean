import RowAccess.Number.Literal
import RowAccess.Schema.Source
import RowAccess.Yaml.Node

/-!
# Declarations in YAML

A YAML scalar is text unless something else is wanted: a text field takes any scalar, a flag or a
size takes a plain scalar of the right form, and an empty plain scalar is an empty list, mapping or
record, or an absent value. Where any type will do, a plain scalar is null, a truth value or a
number if it looks like one, and an explicit core tag decides alone. Local tags are refused there.

Aliases are followed when a value is read, and only so often. Reading also stops at a fixed depth,
so an anchor that contains its own alias is refused.
-/

namespace RowAccess.Yaml

/-- A node of a document, with the nodes that its aliases refer to. -/
structure View where
  anchored : List (Nat × Node)
  node : Node

/-- The spellings of null. -/
def isNull (s : String) : Bool := s == "null" || s == "Null" || s == "NULL" || s == "~"

/-- The truth value that a spelling denotes. -/
def readFlag? (s : String) : Option Bool :=
  if s == "true" || s == "True" || s == "TRUE" then some true
  else if s == "false" || s == "False" || s == "FALSE" then some false
  else none

/-- Digits of a base up to sixteen, at least one. -/
def readDigits? (base : Nat) (cs : List Char) : Option Nat :=
  if cs.isEmpty then none
  else
    (cs.mapM fun c ↦ (Text.hexValue? c).filter fun d ↦ d < base).map fun ds ↦
      ds.foldl (fun n d ↦ n * base + d) 0

/-- Digits that are text because they begin with a superfluous zero. -/
def isPaddedNumber (cs : List Char) : Bool :=
  let digits := match cs with
    | '-' :: rest => rest
    | '+' :: rest => rest
    | rest => rest
  1 < digits.length && digits.head? == some '0' && digits.all Text.isDigit

/-- The magnitude that follows a base mark, or plain decimal digits. -/
def readMagnitude? (padded : Bool) : List Char → Option Nat
  | '0' :: 'x' :: rest => readDigits? 16 rest
  | '0' :: 'o' :: rest => readDigits? 8 rest
  | '0' :: 'b' :: rest => readDigits? 2 rest
  | cs => if padded then none else readDigits? 10 cs

/-- An integer of any size, with an optional sign. -/
def readInt? (s : String) : Option Int :=
  let cs := s.toList
  match cs with
  | '+' :: rest => (readMagnitude? (isPaddedNumber cs) rest).map Int.ofNat
  | '-' :: rest => (readMagnitude? (isPaddedNumber cs) rest).map fun n ↦ -(n : Int)
  | rest => (readMagnitude? (isPaddedNumber cs) rest).map Int.ofNat

/-- An unsigned integer of 64 bits without a minus sign. -/
def readSize? (s : String) : Option Nat :=
  if s.toList.head? == some '-' then none
  else
    match readInt? s with
    | some n => if n ≤ Text.nat64Max then some n.toNat else none
    | none => none

/-- Whether a scalar is a number with a fraction or an exponent, or an infinity or `nan`. -/
def isFloat (s : String) : Bool :=
  let unsigned := match s.toList with
    | '+' :: rest => rest
    | rest => rest
  let doubleSign := s.toList.head? == some '+' &&
    (unsigned.head? == some '+' || unsigned.head? == some '-')
  let name := String.ofList unsigned
  let infinite := name == ".inf" || name == ".Inf" || name == ".INF" ||
    s == "-.inf" || s == "-.Inf" || s == "-.INF"
  let noNumber := s == ".nan" || s == ".NaN" || s == ".NAN"
  let finite := match Binary64.readExtended? name with
    | some (.finite _) => true
    | _ => false
  !doubleSign && (infinite || noNumber || finite)

/-- An integer as untyped data: with a minus sign a signed one, otherwise an unsigned one. Integers
beyond 64 bits cannot be held. -/
def plainInt? (s : String) (n : Int) : Option Plain :=
  if s.toList.head? == some '-' then if Text.isInt64 n then some .number else none
  else if n ≤ Text.nat64Max then some (.nat n.toNat)
  else none

/-- A scalar whose type is decided by its form. Integers beyond 128 bits are floats or text. -/
def plainUntagged? (s : String) : Option Plain :=
  let other : Plain := if !isPaddedNumber s.toList && isFloat s then .number else .text s
  if s.isEmpty || isNull s then some .null
  else
    match readFlag? s, readInt? s with
    | some b, _ => some (.bool b)
    | none, some n =>
      if -(twoTo 127 : Int) ≤ n ∧ n < twoTo 128 then plainInt? s n else some other
    | none, none => some other

/-- A scalar as untyped data. A tag of the core schema decides alone, and a local tag is refused. A
tag that would be local if it were text does not count on a plain scalar. -/
def plainScalar? (s : String) (style : Style) : Option Tag → Option Plain
  | some tag =>
    if tag.isLocal then none
    else if tag == .core "bool" then (readFlag? s).map .bool
    else if tag == .core "int" then (readInt? s).bind (plainInt? s)
    else if tag == .core "float" then if isFloat s then some .number else none
    else if tag == .core "null" then if isNull s then some .null else none
    else if tag.isMarked && style == .plain then plainUntagged? s
    else some (.text s)
  | none => if style == .plain then plainUntagged? s else some (.text s)

/-- The node behind an alias, which takes one of the steps that are left; any other node is
itself. -/
def follow (anchored : List (Nat × Node)) : Node → Decode Node
  | .alias number => fun left ↦
    match left, anchored.lookup number with
    | left + 1, some node => some (node, left)
    | _, _ => none
  | node => pure node

/-- A node as untyped data, with a bound on how deep its collections nest. -/
def toPlain (anchored : List (Nat × Node)) : (depth : Nat) → Node → Decode Plain
  | depth, node => do
    match ← follow anchored node, depth with
    | .scalar s style tag, _ => plainScalar? s style tag
    | .sequence items tag, depth + 1 =>
      if tag.any Tag.isLocal then failure
      return .list (← items.mapM (toPlain anchored depth))
    | .mapping entries tag, depth + 1 =>
      if tag.any Tag.isLocal then failure
      return .map (← entries.mapM fun (key, value) ↦ do
        return (← toPlain anchored depth key, ← toPlain anchored depth value))
    | _, _ => failure

namespace View

/-- How deep the value of a field may nest: 128 collections in all, six of which are around it. -/
def maxDepth : Nat := 122

/-- Another node of the same document. -/
def child (v : View) (node : Node) : View := { v with node }

/-- The same document at the node behind an alias. -/
def resolve (v : View) : Decode View := do
  return v.child (← follow v.anchored v.node)

def isEmptyScalar : Node → Bool
  | .scalar s style _ => s.isEmpty && style == .plain
  | _ => false

def text? (v : View) : Option String :=
  match v.node with
  | .scalar s _ _ => some s
  | _ => none

/-- A plain scalar, or a literal block tagged with the wanted type. -/
def typedText? (v : View) (name : String) : Option String :=
  match v.node with
  | .scalar s .plain _ => some s
  | .scalar s .literal (some tag) => if tag == .core name then some s else none
  | _ => none

/-- A plain scalar without a tag is absent if it is empty or null; one with the tag of null has to
be a spelling of null. -/
def absent? (v : View) : Option Bool :=
  match v.node with
  | .scalar s .plain none => some (s.isEmpty || isNull s)
  | .scalar s .plain (some tag) =>
    if tag == .core "null" then (if isNull s then some true else none) else some false
  | _ => some false

def items? (v : View) : Option (List View) :=
  match v.node with
  | .sequence items _ => some (items.map v.child)
  | node => if isEmptyScalar node then some [] else none

def entries? (v : View) : Option (List (View × View)) :=
  match v.node with
  | .mapping entries _ => some (entries.map fun (key, value) ↦ (v.child key, v.child value))
  | node => if isEmptyScalar node then some [] else none

def plain (v : View) : Decode Plain := toPlain v.anchored maxDepth v.node

end View

instance : Source View where
  resolve := View.resolve
  absent? := View.absent?
  text? := View.text?
  flag? := fun v ↦ (v.typedText? "bool").bind readFlag?
  size? := fun v ↦ (v.typedText? "int").bind readSize?
  items? := View.items?
  entries? := View.entries?
  record? := fun _ v ↦ v.entries?
  plain := View.plain

end RowAccess.Yaml

namespace RowAccess.SchemaDeclaration

/-- The declaration that a document holds. -/
def ofDocument? (document : Yaml.Document) : Option SchemaDeclaration :=
  (read (⟨document.anchored, document.root⟩ : Yaml.View)).run' document.aliasLimit

/-- The declaration that a YAML text holds. -/
def ofYaml (text : String) : Except SchemaFault SchemaDeclaration :=
  match Yaml.Document.parse text with
  | .error fault => .error (.unreadable none fault.message)
  | .ok none => .error (.unreadable none "missing field apps")
  | .ok (some document) =>
    match ofDocument? document with
    | some declaration => .ok declaration
    | none => .error (.unreadable none "the document does not declare a schema")

/-- The declaration in a file, whose contents are given if it can be read. -/
def ofYamlFile (path : String) : (contents : Option String) → Except SchemaFault SchemaDeclaration
  | none => .error (.fileNotFound path)
  | some text =>
    (ofYaml text).mapError fun
      | .unreadable _ problem => .unreadable (some path) problem
      | fault => fault

end RowAccess.SchemaDeclaration

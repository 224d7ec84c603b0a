import RowAccess.Rest.Fault
import RowAccess.Text.Blank
import RowAccess.Text.Percent

/-!
# Requests and responses

A request as it comes over the wire, with its target still percent-encoded and its body unread,
and a response. Header names are compared without regard to ASCII case; of a repeated header the
first value counts.
-/

namespace RowAccess

/-- The headers of a request, in order. -/
abbrev Headers := List (String × String)

namespace Headers

/-- A character that a header value may hold to be read as text. -/
def isVisible (c : Char) : Bool := c == '\t' || (' ' ≤ c && c ≤ '~')

def first? (h : Headers) (name : String) : Option String :=
  (h.find? fun (n, _) ↦ n.toLower == name).map Prod.snd

/-- The first value of a header, as text. -/
def text? (h : Headers) (name : String) : Except Fault (Option String) :=
  match h.first? name with
  | none => .ok none
  | some value =>
    if value.toList.all isVisible then .ok (some value)
    else .error (.request (.invalidHeader name "failed to convert header to a str"))

/-- The first value of a header without surrounding white space. -/
def trimmed? (h : Headers) (name : String) : Except Fault (Option String) := do
  return (← h.text? name).map Text.trim

/-- The entries of a header that is a comma-separated list. -/
def list (h : Headers) (name : String) : Except Fault (List String) := do
  return ((← h.trimmed? name).map Text.commaList).getD []

end Headers

/-- A request. -/
structure Request where
  method : String
  target : String
  headers : Headers := []
  body : String := ""

namespace Request

/-- A character of the name of a scheme. -/
def isSchemeChar (c : Char) : Bool := c.isAlphanum || c == '+' || c == '-' || c == '.'

/-- What follows the host of a target that gives a scheme and a host. -/
def afterHost? (target : List Char) : Option (List Char) :=
  match target.dropWhile isSchemeChar with
  | ':' :: '/' :: '/' :: rest => some (rest.dropWhile fun c ↦ c != '/' && c != '?')
  | _ => none

/-- The path and the query of the target; a fragment does not count. After a host the path may be
missing, which means the root. A target of any other form that does not begin with a slash has no
path. -/
def location (r : Request) : List Char × List Char :=
  let target := r.target.toList.takeWhile fun c ↦ c != '#'
  let split (cs : List Char) : List Char × List Char := (Text.splitFirst? '?' cs).getD (cs, [])
  match target, afterHost? target with
  | '/' :: _, _ => split target
  | _, some rest =>
    let (path, query) := split rest
    (if path.isEmpty then ['/'] else path, query)
  | _, none => ([], [])

def path (r : Request) : List Char := r.location.1

def pairs (r : Request) : List (String × String) := Text.formPairs r.location.2

end Request

/-- The body of a response. -/
inductive Content where
  | empty
  | text (s : String)
  | json (value : Json)

structure Response where
  status : Nat
  etag : Option String := none
  content : Content := .empty

namespace Response

def ofJson (value : Json) : Response := { status := 200, content := .json value }

def bare (status : Nat) : Response := { status }

def note (status : Nat) (line : String) : Response := { status, content := .text line }

def ofFault (f : Fault) : Response := { status := f.status, content := .json f.toJson }

end Response

end RowAccess

import RowAccess.Text.Blank

/-!
# Media types

Writes have to declare their body as JSON: the media type is `application/json`, or an
`application` type whose structured suffix is `json`. A media type that is not well formed,
parameters included, declares nothing.
-/

namespace RowAccess.MediaType

/-- A character of a type name, a parameter name or a plain parameter value. -/
def isTokenChar (c : Char) : Bool :=
  ('0' ≤ c && c ≤ '9') || ('a' ≤ c && c ≤ 'z') || ('A' ≤ c && c ≤ 'Z') ||
    "!#$%&'*+-.^_\x60|~".toList.contains c

/-- A character of a quoted parameter value. -/
def isQuotedChar (c : Char) : Bool := 31 < c.toNat && c.toNat != 127

/-- What follows a quoted value: blanks, and a semicolon if there are further parameters. -/
def afterQuoted? : List Char → Option (List Char)
  | [] => some []
  | ';' :: rest => some rest
  | ' ' :: rest => afterQuoted? rest
  | _ => none

/-- What follows a quoted value, behind its closing quote. The value is not empty: a quote right
at its beginning belongs to it. -/
def dropQuoted? (cs : List Char) : Option (List Char) :=
  match cs with
  | [] => none
  | first :: rest =>
    if !isQuotedChar first then none
    else
      match rest.dropWhile fun c ↦ isQuotedChar c && c != '"' with
      | '"' :: rest => afterQuoted? rest
      | _ => none

/-- What follows a plain value, behind the semicolon if there is one. -/
def dropPlain? (cs : List Char) : Option (List Char) :=
  match cs.dropWhile isTokenChar with
  | [] => some []
  | ';' :: rest => if (cs.takeWhile isTokenChar).isEmpty then none else some rest
  | _ => none

/-- What follows one parameter. -/
def dropParameter? (cs : List Char) : Option (List Char) :=
  if (cs.takeWhile isTokenChar).isEmpty then none
  else
    match cs.dropWhile isTokenChar with
    | '=' :: '"' :: rest => dropQuoted? rest
    | '=' :: rest => dropPlain? rest
    | _ => none

/-- Whether a text is a list of parameters, each after blanks. Every parameter takes a character,
so the length of the text bounds their number. -/
def areParameters : (steps : Nat) → List Char → Bool
  | 0, _ => false
  | steps + 1, cs =>
    match cs.dropWhile (· == ' ') with
    | [] => true
    | cs =>
      match dropParameter? cs with
      | some rest => areParameters steps rest
      | none => false

/-- The type and the subtype of a media type, with lower-case letters. -/
def parse? (s : String) : Option (List Char × List Char) :=
  let cs := s.toList.map Char.toLower
  let type := cs.takeWhile isTokenChar
  match cs.dropWhile isTokenChar with
  | '/' :: rest =>
    let subtype := rest.takeWhile isTokenChar
    if type.isEmpty then none
    else
      match rest.dropWhile isTokenChar with
      | [] => some (type, subtype)
      | ';' :: parameters =>
        if !subtype.isEmpty && areParameters (parameters.length + 1) parameters then
          some (type, subtype)
        else none
      | _ => none
  | _ => none

/-- A subtype without its structured suffix, and the suffix: what follows the last plus sign,
unless the subtype begins with that sign. -/
def splitSuffix (subtype : List Char) : List Char × Option (List Char) :=
  let suffix := (subtype.reverse.takeWhile (· != '+')).reverse
  let base := subtype.take (subtype.length - suffix.length - 1)
  if base.isEmpty then (subtype, none) else (base, some suffix)

/-- Whether a media type is JSON. -/
def isJson (s : String) : Bool :=
  match parse? s with
  | some (type, subtype) =>
    let (base, suffix) := splitSuffix subtype
    type == "application".toList && (base == "json".toList || suffix == some "json".toList)
  | none => false

end RowAccess.MediaType

/-!
# Routes

A path belongs to the route whose pattern it fits. Literal characters are themselves; a parameter
takes what is left of a segment, which may be nothing unless the path ends there; a remainder takes
the rest of the path, one character at least. Where several patterns fit, the one with a literal
character at the first place where they differ wins, whatever their methods are. The routes of one
pattern belong together, and the method chooses among them.
-/

namespace RowAccess

/-- What the service does at a route. -/
inductive Endpoint where
  | health
  | whoami
  | list
  | create
  | item
  | update
  | delete
  | unlink
  /-- An additional endpoint, named by its path. -/
  | custom (path : String)
  deriving DecidableEq, Repr

/-- What a request asks for at an endpoint. -/
inductive Operation where
  | health
  | whoami
  | list
  | detail
  | create
  | replace
  | patch
  | delete
  | unlink
  | custom (path : String)
  deriving DecidableEq, Repr

/-- The operation of a method at an endpoint; `HEAD` asks for what `GET` does. -/
def Endpoint.operation? (e : Endpoint) (method : String) : Option Operation :=
  let get := method == "GET" || method == "HEAD"
  match e with
  | health => if get then some .health else none
  | whoami => if get then some .whoami else none
  | list => if get then some .list else none
  | item => if get then some .detail else none
  | custom path => if get then some (.custom path) else none
  | create => if method == "POST" then some .create else none
  | update =>
    if method == "PUT" then some .replace
    else if method == "PATCH" then some .patch
    else none
  | delete => if method == "DELETE" then some .delete else none
  | unlink => if method == "PATCH" then some .unlink else none

/-- Whether an operation reads the segments that its route takes. -/
def Operation.readsPath : Operation → Bool
  | health | whoami | custom _ => false
  | list | detail | create | replace | patch | delete | unlink => true

/-- A part of a route's pattern. -/
inductive PatternPart where
  | literal (c : Char)
  | parameter
  | remainder
  deriving DecidableEq, Repr

/-- A pattern and its endpoint. -/
structure Route where
  pattern : List PatternPart
  endpoint : Endpoint

namespace Route

/-- The pattern of a written path. A name in braces is a parameter, or the remainder if it begins
with an asterisk; a doubled brace is a literal one. -/
def parsePattern : (inName : Bool) → List Char → List PatternPart
  | _, [] => []
  | false, '\x7b' :: '\x7b' :: rest => .literal '\x7b' :: parsePattern false rest
  | false, '\x7b' :: '*' :: rest => .remainder :: parsePattern true rest
  | false, '\x7b' :: rest => .parameter :: parsePattern true rest
  | false, '\x7d' :: '\x7d' :: rest => .literal '\x7d' :: parsePattern false rest
  | false, c :: rest => .literal c :: parsePattern false rest
  | true, '\x7d' :: '\x7d' :: rest => parsePattern true rest
  | true, '\x7d' :: rest => parsePattern false rest
  | true, _ :: rest => parsePattern true rest

def ofPath (path : String) (endpoint : Endpoint) : Route :=
  ⟨parsePattern false path.toList, endpoint⟩

/-- What the parameters of a pattern take, if a path fits the pattern. -/
def capture? : List PatternPart → List Char → Option (List (List Char))
  | [], [] => some []
  | .literal c :: pattern, d :: path => if c = d then capture? pattern path else none
  | .parameter :: pattern, path =>
    let segment := path.takeWhile fun c ↦ c != '/'
    let rest := path.dropWhile fun c ↦ c != '/'
    if segment.isEmpty && rest.isEmpty then none
    else (capture? pattern rest).map (segment :: ·)
  | [.remainder], c :: path => some [c :: path]
  | _, _ => none

/-- Whether a pattern has a literal at the first place where it differs from another one. -/
def isPreferred : List PatternPart → List PatternPart → Bool
  | .literal _ :: as, .literal _ :: bs => isPreferred as bs
  | .literal _ :: _, _ :: _ => true
  | .parameter :: as, .parameter :: bs => isPreferred as bs
  | _, _ => false

/-- The endpoints of a path, with what the parameters of their pattern take. -/
def find? (routes : List Route) (path : List Char) :
    Option (List Endpoint × List (List Char)) :=
  let fitting := routes.filterMap fun r ↦ (capture? r.pattern path).map fun taken ↦ (r, taken)
  let best := fitting.foldl
    (fun best candidate ↦
      match best with
      | none => some candidate
      | some b => if isPreferred candidate.1.pattern b.1.pattern then some candidate else some b)
    none
  best.map fun (r, taken) ↦
    ((routes.filter fun other ↦ other.pattern = r.pattern).map endpoint, taken)

/-- The routes of every service. -/
def standard : List Route :=
  [ofPath "/health" .health,
    ofPath "/healthz" .health,
    ofPath "/whoami" .whoami,
    ofPath "/\x7bapp\x7d/\x7bmodel\x7d" .list,
    ofPath "/\x7bapp\x7d/\x7bmodel\x7d/create" .create,
    ofPath "/\x7bapp\x7d/\x7bmodel\x7d/\x7bid\x7d" .item,
    ofPath "/\x7bapp\x7d/\x7bmodel\x7d/update/\x7bid\x7d" .update,
    ofPath "/\x7bapp\x7d/\x7bmodel\x7d/delete/\x7bid\x7d" .delete,
    ofPath
      "/\x7bapp\x7d/\x7bmodel\x7d/\x7bid\x7d/\x7bfield\x7d/delete/\x7bitemmodel\x7d/\x7bitem\x7d"
      .unlink]

end Route

end RowAccess

import RowAccess.Json.Reader
import RowAccess.Rest.Identification
import RowAccess.Rest.MediaType
import RowAccess.Rest.Route
import RowAccess.Rest.Writing

/-!
# The service

One request at a time is answered from the store, and may leave another store behind. A request is
looked at from the outside in: its route, its method, the encoding of its path, the type and the
syntax of its body, and then the model, the row and the requester. What fails on the way gives the
response; the store changes only with the response of a write that succeeded.
-/

namespace RowAccess

/-- What a service consists of besides its rows. -/
structure Service where
  identification : Identification := .headers
  /-- The paths of additional endpoints. -/
  customPaths : List String := []

namespace Service

/-- The routes of a service. -/
def routes (service : Service) : List Route :=
  Route.standard ++ service.customPaths.map fun path ↦ Route.ofPath path (.custom path)

def health : Response :=
  .ofJson (.object [("status", .text "ok"), ("service", .text "schemagate")])

/-- The response that shows the requester to themselves. -/
def whoami (identity : Identity) : Except Fault Response :=
  if identity.isAuthenticated then .ok (.ofJson identity.toJson)
  else .error (.access .authenticationRequired)

/-- The JSON value in the body of a write, or the response to a body that holds none. -/
def readBody (request : Request) : Except Response Json :=
  let declared := (request.headers.text? "content-type").toOption.join
  if !declared.any MediaType.isJson then .error (.note 415 "The body has to be declared as JSON")
  else
    match Json.parse? request.body with
    | some body => .ok body
    | none => .error (.note 400 "The body is not a JSON value")

/-- The outcome of an operation that reads. -/
def reading (store : Store) (outcome : Except Fault Response) :
    Except Response (Response × Store) :=
  (outcome.map fun response ↦ (response, store)).mapError .ofFault

/-- The outcome of an operation that writes. -/
def writing (outcome : Except Fault (Response × Store)) : Except Response (Response × Store) :=
  outcome.mapError .ofFault

/-- Carry out an operation, given the decoded segments that its route takes. -/
def perform (service : Service) (now : Instant) (store : Store) (request : Request) :
    Operation → List String → Except Response (Response × Store)
  | .health, _ => .ok (health, store)
  | .custom path, _ => .ok (.ofJson (.object [("custom", .text path)]), store)
  | .whoami, _ => reading store do whoami (← identity)
  | .list, [app, model] => reading store do
    let m ← store.registry.modelOf app model
    store.list m (← identity) parameters
  | .detail, [app, model, id] => reading store do
    let m ← store.registry.modelOf app model
    store.detail m identity parameters id
  | .create, [app, model] => do
    let body ← readBody request
    writing do
      let m ← store.registry.modelOf app model
      store.create m (← identity) now body
  | .replace, [app, model, id] => do
    let body ← readBody request
    writing do
      let m ← store.registry.modelOf app model
      store.change m .replace identity request.headers now id body
  | .patch, [app, model, id] => do
    let body ← readBody request
    writing do
      let m ← store.registry.modelOf app model
      store.change m .patch identity request.headers now id body
  | .delete, [app, model, id] => writing do
    let m ← store.registry.modelOf app model
    store.remove m identity id
  | .unlink, [app, model, id, field, itemModel, item] => writing do
    let m ← store.registry.modelOf app model
    store.unlink m identity now id field itemModel item
  | _, _ => .error (.bare 404)
where
  identity : Except Fault Identity := service.identification.identify request.headers
  parameters : Parameters := .ofPairs request.pairs

/-- Answer a request, with its body also for `HEAD`. -/
def answer (service : Service) (now : Instant) (store : Store) (request : Request) :
    Except Response (Response × Store) :=
  match Route.find? service.routes request.path with
  | none => .error (.bare 404)
  | some (endpoints, taken) =>
    match endpoints.findSome? fun endpoint ↦ endpoint.operation? request.method with
    | none => .error (.bare 405)
    | some operation =>
      let segments := if operation.readsPath then taken.mapM Text.decodeSegment? else some []
      match segments with
      | none => .error (.note 400 "The path is not encoded as UTF-8")
      | some segments => service.perform now store request operation segments

/-- Answer a request at a moment; the store afterwards is the same one unless a write succeeded. -/
def respond (service : Service) (now : Instant) (store : Store) (request : Request) :
    Response × Store :=
  let (response, store) :=
    match service.answer now store request with
    | .ok outcome => outcome
    | .error response => (response, store)
  (if request.method == "HEAD" then { response with content := .empty } else response, store)

end Service

end RowAccess

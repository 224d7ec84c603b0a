import RowAccess.Proofs.Rest.Writes

/-!
# The frame of a request

A request leaves the store as it was, or it is a write that succeeded. Then the requester had the
permission for it, and it changed one row of the addressed model and nothing else: a create put a
row under a free id, every other write replaced or removed the row with the id in the path.
-/

namespace RowAccess

/-- The action that an operation needs a permission for, if it writes. -/
def Operation.action? : Operation → Option String
  | create => some "add"
  | replace | patch | unlink => some "change"
  | delete => some "delete"
  | health | whoami | list | detail | custom _ => none

def UpdateMode.operation : UpdateMode → Operation
  | replace => .replace
  | patch => .patch

/-- What a write does under an id: the row that was there, and the one that is there afterwards. The
id is the one in the path, behind the app and the model, unless the write creates a row. -/
def Operation.Turns (operation : Operation) (path : List String) (id : Int)
    (before after : Option Row) : Prop :=
  match operation with
  | create => before = none ∧ after.isSome = true
  | delete => path.head?.bind Text.readInt64? = some id ∧ before.isSome = true ∧ after = none
  | _ => path.head?.bind Text.readInt64? = some id ∧ before.isSome = true ∧ after.isSome = true

namespace Service

/-- A user with the permission for an operation has changed one row of the addressed model. -/
def WritesOneRow (service : Service) (request : Request) (s s' : Store) (operation : Operation)
    (segments : List String) : Prop :=
  ∃ app model path action user id before after,
    segments = app :: model :: path ∧
    operation.action? = some action ∧
    service.identification.identify request.headers = .ok (.user user) ∧
    (user.isSuperuserOf app = true ∨ permissionName app action model ∈ user.permissions) ∧
    s.ChangesOnly s' ⟨app, model⟩ id before after ∧
    operation.Turns path id before after

/-- The operation that a request asks for, with the decoded segments of its path. -/
def addressed? (service : Service) (request : Request) : Option (Operation × List String) := do
  let (endpoints, taken) ← Route.find? service.routes request.path
  let operation ← endpoints.findSome? fun endpoint ↦ endpoint.operation? request.method
  let segments := if operation.readsPath then taken.mapM Text.decodeSegment? else some []
  segments.map fun segments ↦ (operation, segments)

theorem addressed?_eq (service : Service) (request : Request) :
    service.addressed? request
      = service.addressed? { method := request.method, target := request.target } :=
  rfl

variable {service : Service} {now : Instant} {s s' : Store} {request : Request}
  {response : Response} {operation : Operation} {segments : List String}

theorem exists_of_answer_eq_ok (h : service.answer now s request = .ok (response, s')) :
    ∃ operation segments, service.addressed? request = some (operation, segments) ∧
      service.perform now s request operation segments = .ok (response, s') := by
  rw [answer] at h
  split at h
  · cases h
  · rename_i endpoints taken hroute
    split at h
    · cases h
    · rename_i operation hoperation
      dsimp only at h
      split at h
      · cases h
      · rename_i segments hsegments
        refine ⟨operation, segments, ?_, h⟩
        rw [addressed?, hroute]
        simp only [Option.bind_eq_bind, Option.bind_some, hoperation, hsegments]
        rfl

theorem answer_of_addressed? (h : service.addressed? request = some (operation, segments)) :
    service.answer now s request = service.perform now s request operation segments := by
  rw [addressed?] at h
  obtain ⟨⟨endpoints, taken⟩, hroute, h⟩ := Option.bind_eq_some_iff.mp h
  obtain ⟨operation', hoperation, h⟩ := Option.bind_eq_some_iff.mp h
  obtain ⟨segments', hsegments, hpair⟩ := Option.map_eq_some_iff.mp h
  obtain ⟨rfl, rfl⟩ := Prod.mk.inj hpair
  rw [answer, hroute]
  simp only [hoperation, hsegments]

theorem eq_of_reading {outcome : Except Fault Response}
    (h : reading s outcome = .ok (response, s')) : s' = s := by
  obtain ⟨_, _, hpair⟩ := Outcome.map_eq_ok_iff.mp (Outcome.mapError_eq_ok_iff.mp h)
  exact (Prod.mk.inj hpair).2.symm

theorem exists_of_writing {app model : String} {write : Model → Except Fault (Response × Store)}
    (h : (writing do
      let m ← s.registry.modelOf app model
      write m) = .ok (response, s')) :
    ∃ m, s.registry.get? ⟨app, model⟩ = some m ∧ write m = .ok (response, s') := by
  obtain ⟨m, hm, hwrite⟩ := Outcome.bind_eq_ok_iff.mp (Outcome.mapError_eq_ok_iff.mp h)
  exact ⟨m, Registry.modelOf_eq_ok_iff.mp hm, hwrite⟩

theorem writesOneRow_of_permission {m : Model} {identity : Identity} {app model action : String}
    {path : List String} {id : Int} {before after : Option Row}
    (hm : s.registry.get? ⟨app, model⟩ = some m)
    (haction : operation.action? = some action)
    (hidentity : service.identification.identify request.headers = .ok identity)
    (hpermission : identity.hasPermission m.key.app action m.key.model = true)
    (hchanges : s.ChangesOnly s' m.key id before after)
    (hturns : operation.Turns path id before after) :
    service.WritesOneRow request s s' operation (app :: model :: path) := by
  rw [((s.registry.get?_eq_some_iff _ m).mp hm).2] at hpermission hchanges
  obtain ⟨user, rfl, hallowed⟩ := Identity.hasPermission_iff.mp hpermission
  exact ⟨app, model, path, action, user, id, before, after, rfl, haction, hidentity, hallowed,
    hchanges, hturns⟩

theorem writesOneRow_of_change {m : Model} {mode : UpdateMode} {body : Json} {app model id : String}
    (hm : s.registry.get? ⟨app, model⟩ = some m)
    (h : s.change m mode (service.identification.identify request.headers) request.headers now id
      body = .ok (response, s')) :
    (200 ≤ response.status ∧ response.status < 300) ∧
      service.WritesOneRow request s s' mode.operation [app, model, id] := by
  obtain ⟨n, found, row, stored, hfound, hrow, hcommit, rfl⟩ := Store.change_eq_ok_iff.mp h
  obtain ⟨identity, hidentity, hpermission⟩ := Model.hasPermission_of_updatedRow hrow
  obtain ⟨-, before, hchanges⟩ := Store.changesOnly_of_commit hcommit
  have hn := (Store.rowOf_eq_ok_iff.mp hfound).1
  refine ⟨by simp, ?_⟩
  cases mode with
  | replace =>
    exact writesOneRow_of_permission hm rfl hidentity hpermission hchanges ⟨hn, rfl, rfl⟩
  | patch => exact writesOneRow_of_permission hm rfl hidentity hpermission hchanges ⟨hn, rfl, rfl⟩

/-- The write that a successful operation comes down to, by the segments that it addresses. -/
inductive Performs (service : Service) (now : Instant) (request : Request) (s s' : Store)
    (response : Response) : Operation → List String → Prop
  | create {app model : String} {m : Model} {identity : Identity} {body : Json}
      (registered : s.registry.get? ⟨app, model⟩ = some m) (decoded : readBody request = .ok body)
      (identified : service.identification.identify request.headers = .ok identity)
      (done : s.create m identity now body = .ok (response, s')) :
      Performs service now request s s' response .create [app, model]
  | change {mode : UpdateMode} {app model id : String} {m : Model} {body : Json}
      (registered : s.registry.get? ⟨app, model⟩ = some m) (decoded : readBody request = .ok body)
      (done : s.change m mode (service.identification.identify request.headers) request.headers
        now id body = .ok (response, s')) :
      Performs service now request s s' response mode.operation [app, model, id]
  | remove {app model id : String} {m : Model}
      (registered : s.registry.get? ⟨app, model⟩ = some m)
      (done : s.remove m (service.identification.identify request.headers) id
        = .ok (response, s')) :
      Performs service now request s s' response .delete [app, model, id]
  | unlink {app model id field itemModel item : String} {m : Model}
      (registered : s.registry.get? ⟨app, model⟩ = some m)
      (done : s.unlink m (service.identification.identify request.headers) now id field itemModel
        item = .ok (response, s')) :
      Performs service now request s s' response .unlink [app, model, id, field, itemModel, item]

/-- A successful operation reads and leaves the store as it was, or it is a write. -/
theorem reads_or_performs_of_perform
    (h : service.perform now s request operation segments = .ok (response, s')) :
    (operation.action? = none ∧ s' = s) ∨
      service.Performs now request s s' response operation segments := by
  unfold perform at h
  split at h
  case h_1 => exact .inl ⟨rfl, (Prod.mk.inj (Except.ok.inj h)).2.symm⟩
  case h_2 => exact .inl ⟨rfl, (Prod.mk.inj (Except.ok.inj h)).2.symm⟩
  case h_3 => exact .inl ⟨rfl, eq_of_reading h⟩
  case h_4 => exact .inl ⟨rfl, eq_of_reading h⟩
  case h_5 => exact .inl ⟨rfl, eq_of_reading h⟩
  case h_6 =>
    -- create
    obtain ⟨body, hbody, h⟩ := Outcome.bind_eq_ok_iff.mp h
    obtain ⟨m, hm, h⟩ := exists_of_writing h
    obtain ⟨identity, hidentity, h⟩ := Outcome.bind_eq_ok_iff.mp h
    exact .inr (.create hm hbody hidentity h)
  case h_7 =>
    -- replace
    obtain ⟨body, hbody, h⟩ := Outcome.bind_eq_ok_iff.mp h
    obtain ⟨m, hm, h⟩ := exists_of_writing h
    exact .inr (@Performs.change service now request s s' response .replace _ _ _ m body hm hbody h)
  case h_8 =>
    -- patch
    obtain ⟨body, hbody, h⟩ := Outcome.bind_eq_ok_iff.mp h
    obtain ⟨m, hm, h⟩ := exists_of_writing h
    exact .inr (@Performs.change service now request s s' response .patch _ _ _ m body hm hbody h)
  case h_9 =>
    -- delete
    obtain ⟨m, hm, h⟩ := exists_of_writing h
    exact .inr (.remove hm h)
  case h_10 =>
    -- unlink
    obtain ⟨m, hm, h⟩ := exists_of_writing h
    exact .inr (.unlink hm h)
  case h_11 => exact nomatch h

/-- A successful operation leaves the store as it was, or is a write of one row. -/
theorem eq_or_writesOneRow_of_perform
    (h : service.perform now s request operation segments = .ok (response, s')) :
    s' = s ∨ (200 ≤ response.status ∧ response.status < 300) ∧
      service.WritesOneRow request s s' operation segments := by
  refine (reads_or_performs_of_perform h).imp And.right fun hperforms ↦ ?_
  cases hperforms with
  | create hm hbody hidentity hcreate =>
    obtain ⟨row, stored, hrow, hinsert, rfl⟩ := Store.create_eq_ok_iff.mp hcreate
    obtain ⟨id, -, hchanges⟩ := Store.changesOnly_of_insert hinsert
    exact ⟨by simp, writesOneRow_of_permission hm rfl hidentity
      (Model.hasPermission_of_newRow hrow) hchanges ⟨rfl, rfl⟩⟩
  | change hm hbody hchange => exact writesOneRow_of_change hm hchange
  | remove hm hremove =>
    obtain ⟨n, found, identity, hfound, hidentity, hpermission, hdelete, rfl⟩ :=
      Store.remove_eq_ok_iff.mp hremove
    obtain ⟨before, hchanges⟩ := Store.changesOnly_of_delete hdelete
    have hn := (Store.rowOf_eq_ok_iff.mp hfound).1
    exact ⟨by simp [Response.bare], writesOneRow_of_permission hm rfl hidentity
      (Model.requirePermission_eq_ok_iff.mp hpermission) hchanges ⟨hn, rfl, rfl⟩⟩
  | unlink hm hunlink =>
    obtain ⟨n, found, row, stored, hfound, hrow, hcommit, rfl⟩ :=
      Store.unlink_eq_ok_iff.mp hunlink
    obtain ⟨identity, hidentity, hpermission⟩ := Model.hasPermission_of_unlinkedRow hrow
    obtain ⟨-, before, hchanges⟩ := Store.changesOnly_of_commit hcommit
    have hn := (Store.rowOf_eq_ok_iff.mp hfound).1
    exact ⟨by simp [Response.bare], writesOneRow_of_permission hm rfl hidentity hpermission
      hchanges ⟨hn, rfl, rfl⟩⟩

theorem action?_eq_none_of_reading_method
    (h : service.addressed? request = some (operation, segments))
    (hmethod : request.method = "GET" ∨ request.method = "HEAD") : operation.action? = none := by
  rw [addressed?] at h
  obtain ⟨⟨endpoints, taken⟩, -, h⟩ := Option.bind_eq_some_iff.mp h
  obtain ⟨operation', hfound, h⟩ := Option.bind_eq_some_iff.mp h
  obtain ⟨segments', -, hpair⟩ := Option.map_eq_some_iff.mp h
  obtain ⟨rfl, -⟩ := Prod.mk.inj hpair
  obtain ⟨endpoint, -, hoperation⟩ := List.exists_of_findSome?_eq_some hfound
  rcases hmethod with hmethod | hmethod <;> rw [hmethod] at hoperation <;>
    cases endpoint <;> simp [Endpoint.operation?] at hoperation <;> rw [← hoperation] <;> rfl

/-- The store changes only with the success of an operation, whose status the response has. -/
theorem exists_of_respond_ne (h : (service.respond now s request).2 ≠ s) :
    ∃ response, service.answer now s request = .ok (response, (service.respond now s request).2) ∧
      (service.respond now s request).1.status = response.status := by
  cases hanswer : service.answer now s request with
  | error response => exact absurd (respond_of_answer_error hanswer).2 h
  | ok outcome =>
    obtain ⟨hstatus, hstore⟩ := respond_of_answer_ok hanswer
    exact ⟨outcome.1, by rw [hstore], hstatus⟩

/-- A request whose response is no success, or whose method reads, leaves the store as it was. If
the store changes, then by one row of the addressed model, and the requester has the permission to
change it. -/
theorem respond_writes_one_row (service : Service) (now : Instant) (s : Store)
    (request : Request) :
    let response := (service.respond now s request).1
    let s' := (service.respond now s request).2
    (¬(200 ≤ response.status ∧ response.status < 300) ∨ request.method = "GET" ∨
      request.method = "HEAD" → s' = s) ∧
    (s' ≠ s → ∃ operation segments, service.addressed? request = some (operation, segments) ∧
      service.WritesOneRow request s s' operation segments) := by
  intro response s'
  have hwrites : s' ≠ s → (200 ≤ response.status ∧ response.status < 300) ∧
      ∃ operation segments, service.addressed? request = some (operation, segments) ∧
        service.WritesOneRow request s s' operation segments := by
    intro hne
    obtain ⟨response', hanswer, hstatus⟩ := exists_of_respond_ne hne
    obtain ⟨operation, segments, haddressed, hperform⟩ := exists_of_answer_eq_ok hanswer
    obtain ⟨hsuccess, heffect⟩ := (eq_or_writesOneRow_of_perform hperform).resolve_left hne
    exact ⟨hstatus ▸ hsuccess, operation, segments, haddressed, heffect⟩
  refine ⟨fun hreads ↦ Classical.byContradiction fun hne ↦ ?_, fun hne ↦ (hwrites hne).2⟩
  obtain ⟨hsuccess, operation, segments, haddressed, heffect⟩ := hwrites hne
  rcases hreads with hfailed | hmethod
  · exact hfailed hsuccess
  · obtain ⟨_, _, _, action, _, _, _, _, -, haction, -⟩ := heffect
    rw [action?_eq_none_of_reading_method haddressed hmethod] at haction
    exact nomatch haction

end Service

end RowAccess

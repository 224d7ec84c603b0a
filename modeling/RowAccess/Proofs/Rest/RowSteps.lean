import RowAccess.Proofs.Audit
import RowAccess.Proofs.Rest.Frame

/-!
# What a request does to one row

A request either leaves the row of an id alone, or it succeeds as one of the operations that write
and turns the row into another one: a row is made of a body, replaced by what a body or an unlinked
item make of it, or removed. `RowStep` lists these cases once, and `row_of_respond` says that there
is no other. What holds of all rows, or of all that happens to a row, is proved from them.
-/

namespace RowAccess

def Operation.isUpdate : Operation → Bool
  | replace | patch | unlink => true
  | health | whoami | list | detail | create | delete | custom _ => false

theorem Operation.action?_of_isUpdate {operation : Operation} (h : operation.isUpdate = true) :
    operation.action? = some "change" := by
  cases operation with
  | replace | patch | unlink => rfl
  | health | whoami | list | detail | create | delete | custom => exact nomatch h

/-! ## Steps of a row -/

namespace Service

/-- What an operation does to the row under an id of a model: the segments of its path behind those
of the model, the row before and the row afterwards. -/
inductive RowStep (service : Service) (now : Instant) (request : Request) (m : Model) (id : Int) :
    Operation → List String → Option Row → Option Row → Prop
  | create {identity : Identity} {body : Json} {row : Row} (decoded : readBody request = .ok body)
      (identified : service.identification.identify request.headers = .ok identity)
      (made : m.newRow identity now body = .ok row) :
      RowStep service now request m id .create [] none (some (row.insert "id" (.int id)))
  | update {mode : UpdateMode} {segment : String} {body : Json} {found row : Row}
      (addressed : Text.readInt64? segment = some id) (decoded : readBody request = .ok body)
      (made : m.updatedRow mode (service.identification.identify request.headers) request.headers
        now found body = .ok row) :
      RowStep service now request m id mode.operation [segment] (some found)
        (some (row.insert "id" (.int id)))
  | unlink {segment field itemModel item : String} {found row : Row}
      (addressed : Text.readInt64? segment = some id)
      (made : m.unlinkedRow (service.identification.identify request.headers) now found field
        itemModel item = .ok row) :
      RowStep service now request m id .unlink [segment, field, itemModel, item] (some found)
        (some (row.insert "id" (.int id)))
  | delete {segment : String} {found : Row} (addressed : Text.readInt64? segment = some id) :
      RowStep service now request m id .delete [segment] (some found) none

/-- A success that writes the row under an id of a model. -/
structure Writes (service : Service) (now : Instant) (s : Store) (request : Request) (m : Model)
    (id : Int) (before after : Option Row) : Prop where
  success : (service.respond now s request).1.isSuccess = true
  step : ∃ operation path,
    service.addressed? request = some (operation, m.key.app :: m.key.model :: path) ∧
      service.RowStep now request m id operation path before after
  get_before : s.get m.key id = .ok before
  get_after : (service.respond now s request).2.get m.key id = .ok after

/-- The operation that a request asks for and the row that its path addresses, if it does. -/
def addressedRow? (service : Service) (request : Request) :
    Option (Operation × ModelKey × Int) := do
  let (operation, segments) ← service.addressed? request
  match segments with
  | app :: model :: segment :: _ => return (operation, ⟨app, model⟩, ← Text.readInt64? segment)
  | _ => none

/-- A request succeeds in changing the row under an id in place. -/
def updates (service : Service) (key : ModelKey) (id : Int) (now : Instant) (s : Store)
    (request : Request) : Bool :=
  (service.respond now s request).1.isSuccess &&
    (service.addressedRow? request).any fun (operation, key', id') ↦
      operation.isUpdate && key' == key && id' == id

variable {service : Service} {now : Instant} {s s' : Store} {request : Request} {m : Model}
  {id : Int} {response : Response} {operation : Operation} {segments path : List String}
  {key : ModelKey} {before after : Option Row}

theorem addressedRow?_eq_some_iff :
    service.addressedRow? request = some (operation, key, id) ↔ ∃ segment rest,
      service.addressed? request = some (operation, key.app :: key.model :: segment :: rest) ∧
        Text.readInt64? segment = some id := by
  rw [addressedRow?]
  constructor
  · intro h
    obtain ⟨⟨operation', segments⟩, haddressed, h⟩ := Option.bind_eq_some_iff.mp h
    dsimp only at h
    split at h
    · next app model segment rest =>
      obtain ⟨id', hid, h⟩ := Option.bind_eq_some_iff.mp h
      obtain ⟨rfl, hrow⟩ := Prod.mk.inj (Option.some.inj h)
      obtain ⟨rfl, rfl⟩ := Prod.mk.inj hrow
      exact ⟨segment, rest, haddressed, hid⟩
    · exact nomatch h
  · rintro ⟨segment, rest, haddressed, hid⟩
    rw [haddressed]
    simp only [Option.bind_eq_bind, Option.bind_some, hid]
    rfl

theorem operation_of_addressedRow? {operation' : Operation}
    (haddressed : service.addressed? request = some (operation, segments))
    (hrow : service.addressedRow? request = some (operation', key, id)) :
    operation' = operation := by
  obtain ⟨segment, rest, haddressed', -⟩ := addressedRow?_eq_some_iff.mp hrow
  exact (Prod.mk.inj (Option.some.inj (haddressed'.symm.trans haddressed))).1

theorem RowStep.addressedRow?_eq
    (h : service.RowStep now request m id operation path before after)
    (haddressed : service.addressed? request = some (operation, key.app :: key.model :: path))
    (hupdate : operation.isUpdate = true) :
    service.addressedRow? request = some (operation, key, id) := by
  cases h with
  | create => exact absurd hupdate (by decide)
  | update hid => exact addressedRow?_eq_some_iff.mpr ⟨_, _, haddressed, hid⟩
  | unlink hid => exact addressedRow?_eq_some_iff.mpr ⟨_, _, haddressed, hid⟩
  | delete => exact absurd hupdate (by decide)

theorem RowStep.isUpdate_eq (h : service.RowStep now request m id operation path before after) :
    operation.isUpdate = (before.isSome && after.isSome) := by
  cases h with
  | create => rfl
  | @update mode => cases mode <;> rfl
  | unlink => rfl
  | delete => rfl

/-- A write is one step of one row, and its response is a success. -/
theorem Performs.exists_rowStep
    (h : service.Performs now request s s' response operation segments) :
    response.isSuccess = true ∧ ∃ app model path m id before after,
      segments = app :: model :: path ∧ s.registry.get? ⟨app, model⟩ = some m ∧
      s.ChangesOnly s' ⟨app, model⟩ id before after ∧
      service.RowStep now request m id operation path before after := by
  cases h with
  | create hm hbody hidentity hcreate =>
    obtain ⟨row, stored, hrow, hinsert, rfl⟩ := Store.create_eq_ok_iff.mp hcreate
    obtain ⟨id, rfl, hchanges⟩ := Store.changesOnly_of_insert hinsert
    rw [((s.registry.get?_eq_some_iff _ _).mp hm).2] at hchanges
    exact ⟨rfl, _, _, _, _, _, _, _, rfl, hm, hchanges, .create hbody hidentity hrow⟩
  | change hm hbody hchange =>
    obtain ⟨n, found, row, stored, hfound, hrow, hcommit, rfl⟩ := Store.change_eq_ok_iff.mp hchange
    have hchanges := Store.changesOnly_of_rowOf_commit hfound hcommit
    rw [((s.registry.get?_eq_some_iff _ _).mp hm).2] at hchanges
    exact ⟨rfl, _, _, _, _, _, _, _, rfl, hm, hchanges,
      .update (Store.rowOf_eq_ok_iff.mp hfound).1 hbody hrow⟩
  | remove hm hremove =>
    obtain ⟨n, found, identity, hfound, -, -, hdelete, rfl⟩ := Store.remove_eq_ok_iff.mp hremove
    obtain ⟨before, hchanges⟩ := Store.changesOnly_of_delete hdelete
    rw [((s.registry.get?_eq_some_iff _ _).mp hm).2] at hchanges
    exact ⟨rfl, _, _, _, _, _, _, _, rfl, hm, hchanges,
      .delete (Store.rowOf_eq_ok_iff.mp hfound).1⟩
  | unlink hm hunlink =>
    obtain ⟨n, found, row, stored, hfound, hrow, hcommit, rfl⟩ := Store.unlink_eq_ok_iff.mp hunlink
    have hchanges := Store.changesOnly_of_rowOf_commit hfound hcommit
    rw [((s.registry.get?_eq_some_iff _ _).mp hm).2] at hchanges
    exact ⟨rfl, _, _, _, _, _, _, _, rfl, hm, hchanges,
      .unlink (Store.rowOf_eq_ok_iff.mp hfound).1 hrow⟩

/-! ## The steps of a request -/

theorem updates_eq_true_iff :
    service.updates key id now s request = true ↔
      (service.respond now s request).1.isSuccess = true ∧ ∃ operation,
        service.addressedRow? request = some (operation, key, id) ∧ operation.isUpdate = true := by
  rw [updates, Bool.and_eq_true, Option.any_eq_true]
  refine and_congr_right fun _ ↦ ?_
  constructor
  · rintro ⟨⟨operation, key', id'⟩, haddressed, h⟩
    simp only [Bool.and_eq_true, beq_iff_eq] at h
    obtain ⟨⟨hupdate, rfl⟩, rfl⟩ := h
    exact ⟨operation, haddressed, hupdate⟩
  · rintro ⟨operation, haddressed, hupdate⟩
    exact ⟨_, haddressed, by simp [hupdate]⟩

theorem Writes.updates_eq (h : service.Writes now s request m id before after) :
    service.updates m.key id now s request = (before.isSome && after.isSome) := by
  obtain ⟨operation, path, haddressed, hstep⟩ := h.step
  rw [← hstep.isUpdate_eq, Bool.eq_iff_iff, updates_eq_true_iff]
  constructor
  · rintro ⟨-, operation', hrow, hupdate⟩
    rwa [operation_of_addressedRow? haddressed hrow] at hupdate
  · intro hupdate
    exact ⟨h.success, operation, hstep.addressedRow?_eq haddressed hupdate, hupdate⟩

theorem updates_eq_false_of_error (h : service.answer now s request = .error response) :
    service.updates key id now s request = false := by
  refine Bool.eq_false_iff.mpr fun hupdates ↦ ?_
  obtain ⟨_, _, hok, -⟩ := isSuccess_respond_iff.mp (updates_eq_true_iff.mp hupdates).1
  rw [h] at hok
  cases hok

theorem updates_eq_false_of_reads
    (haddressed : service.addressed? request = some (operation, segments))
    (hreads : operation.action? = none) : service.updates key id now s request = false := by
  refine Bool.eq_false_iff.mpr fun hupdates ↦ ?_
  obtain ⟨-, operation', hrow, hupdate⟩ := updates_eq_true_iff.mp hupdates
  obtain rfl := operation_of_addressedRow? haddressed hrow
  exact nomatch hreads.symm.trans (Operation.action?_of_isUpdate hupdate)

theorem RowStep.updates_eq_false {other : ModelKey} {n : Int}
    (h : service.RowStep now request m id operation path before after)
    (haddressed : service.addressed? request = some (operation, key.app :: key.model :: path))
    (hother : ¬(other = key ∧ n = id)) : service.updates other n now s request = false := by
  refine Bool.eq_false_iff.mpr fun hupdates ↦ hother ?_
  obtain ⟨-, operation', hrow, hupdate⟩ := updates_eq_true_iff.mp hupdates
  obtain rfl := operation_of_addressedRow? haddressed hrow
  have hthis := h.addressedRow?_eq haddressed hupdate
  exact Prod.mk.inj (Prod.mk.inj (Option.some.inj (hrow.symm.trans hthis))).2

/-- A request leaves the row under an id as it was, and has not updated it, or it writes the row. -/
theorem row_of_respond (service : Service) (now : Instant) (s : Store) (request : Request)
    (key : ModelKey) (id : Int) :
    ((service.respond now s request).2.get key id = s.get key id ∧
      service.updates key id now s request = false) ∨
    ∃ m before after, s.registry.get? key = some m ∧
      service.Writes now s request m id before after := by
  cases hanswer : service.answer now s request with
  | error response =>
    exact .inl ⟨by rw [(respond_of_answer_error hanswer).2], updates_eq_false_of_error hanswer⟩
  | ok outcome =>
    obtain ⟨response, s'⟩ := outcome
    obtain ⟨hstatus, hstore⟩ := respond_of_answer_ok hanswer
    obtain ⟨operation, segments, haddressed, hperform⟩ := exists_of_answer_eq_ok hanswer
    rcases reads_or_performs_of_perform hperform with ⟨hreads, rfl⟩ | hperforms
    · exact .inl ⟨by rw [hstore], updates_eq_false_of_reads haddressed hreads⟩
    · obtain ⟨hsuccess, app, model, path, m, id', before, after, rfl, hm, hchanges, hstep⟩ :=
        hperforms.exists_rowStep
      by_cases hrow : key = ⟨app, model⟩ ∧ id = id'
      · obtain ⟨rfl, rfl⟩ := hrow
        have hkey : m.key = ⟨app, model⟩ := ((s.registry.get?_eq_some_iff _ _).mp hm).2
        refine .inr ⟨m, before, after, hm, ?_, ⟨operation, path, ?_, hstep⟩, ?_, ?_⟩
        · rwa [Response.isSuccess, hstatus]
        · rw [hkey, haddressed]
        · rw [hkey, hchanges.get_before]
        · rw [hkey, hstore, hchanges.get_after]
      · exact .inl ⟨by rw [hstore, hchanges.get_other hrow],
          hstep.updates_eq_false haddressed hrow⟩

theorem registry_respond (service : Service) (now : Instant) (s : Store) (request : Request) :
    (service.respond now s request).2.registry = s.registry := by
  by_cases hsame : (service.respond now s request).2 = s
  · rw [hsame]
  · obtain ⟨response, hanswer, -⟩ := exists_of_respond_ne hsame
    obtain ⟨operation, segments, -, hperform⟩ := exists_of_answer_eq_ok hanswer
    obtain ⟨-, heffect⟩ := (eq_or_writesOneRow_of_perform hperform).resolve_left hsame
    obtain ⟨_, _, _, _, _, _, _, _, -, -, -, -, hchanges, -⟩ := heffect
    exact hchanges.registry

end Service

end RowAccess

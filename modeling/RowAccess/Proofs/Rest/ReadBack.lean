import RowAccess.Proofs.Content
import RowAccess.Proofs.Query.Detail
import RowAccess.Proofs.Rest.Lineage
import RowAccess.Proofs.Rest.Required
import RowAccess.Proofs.Text.Split

/-!
# Reading back what was written

A create, a replacement and a patch make a row of a body in three ways: of its fields alone, of its
fields and the managed ones of the row that was there, and by writing its fields over those of that
row. A detail request for one field has one way only to read it. The two sides agree: what is read
after a write is the value that the body gives to the field, and otherwise what the way of writing
leaves of it (`Operation.valueAfter`).

The managed fields that a body names have to be declared, and nothing else is made of them
(`Model.acceptBody_eq_ok_iff`). So a body with other ones, or without them, is answered in the same
way and leaves the same store behind (`respond_withBody`).
-/

namespace RowAccess

/-! ## The fields of a body -/

/-- The value of a field after a write by a body: the one that the body gives, or else, after a
patch, the one before. -/
def Operation.valueAfter (operation : Operation) (before : Option Row) (body : Json)
    (name : String) : Json :=
  let kept := if operation = .patch then before.map fun found ↦ found.valueOf name else none
  (body.field? name).getD (kept.getD .null)

/-- A body without the managed fields that it names. -/
def Json.withoutManaged : Json → Json
  | .object fields => .object (fields.filter fun field ↦ !isManaged field.1)
  | body => body

theorem Json.field?_withoutManaged (body : Json) {name : String} (hname : isManaged name = false) :
    body.withoutManaged.field? name = body.field? name := by
  cases body with
  | object fields =>
    rw [withoutManaged, field?, field?]
    induction fields with
    | nil => rfl
    | cons field rest ih =>
      obtain ⟨key, value⟩ := field
      cases hkey : isManaged key with
      | true =>
        have hne : name ≠ key := by
          rintro rfl
          exact nomatch hname.symm.trans hkey
        rw [List.filter_cons_of_neg (by simp [hkey]), lookup_cons_eq_ite, if_neg hne, ih]
      | false =>
        rw [List.filter_cons_of_pos (by simp [hkey]), lookup_cons_eq_ite, lookup_cons_eq_ite, ih]
  | null | bool b | number n | text s | array items => rfl

namespace Model

variable {m : Model} {body : Json} {changes stored row : Row} {identity : Identity} {now : Instant}
  {name : String}

theorem acceptField_eq_ok_iff_of_isManaged {row row' : Row} {value : Json}
    (hname : isManaged name = true) :
    m.acceptField row name value = .ok row' ↔ m.hasField name = true ∧ row = row' := by
  rw [acceptField, hasField, Ordered.contains, field?]
  cases m.fields.get? name with
  | none => simp
  | some spec => simp [hname]

/-- The managed fields of a body are declared. -/
def DeclaresManagedOf (m : Model) (body : Json) : Prop :=
  ∀ name, isManaged name = true → body.field? name ≠ none → m.hasField name = true

theorem declaresManagedOf_object_iff {fields : List (String × Json)} :
    m.DeclaresManagedOf (.object fields) ↔
      ∀ field ∈ fields, isManaged field.1 = true → m.hasField field.1 = true := by
  simp only [DeclaresManagedOf, Json.field?, ne_eq, Json.lookup_eq_none_iff_not_mem, not_not,
    List.mem_map]
  constructor
  · exact fun h field hfield hname ↦ h field.1 hname ⟨field, hfield, rfl⟩
  · rintro h name hname ⟨field, hfield, rfl⟩
    exact h field hfield hname

/-- A body writes what it writes without its managed fields, as long as these are declared. -/
theorem acceptBody_eq_ok_iff :
    m.acceptBody body = .ok changes ↔
      m.DeclaresManagedOf body ∧ m.acceptBody body.withoutManaged = .ok changes := by
  cases body with
  | object fields =>
    rw [declaresManagedOf_object_iff, Json.withoutManaged, acceptBody, acceptBody]
    -- From any row on, leaving out a managed field leaves out a step that does nothing.
    generalize Ordered.empty = row
    induction fields generalizing row with
    | nil => simp
    | cons field rest ih =>
      obtain ⟨name, value⟩ := field
      rw [List.foldlM_cons, Outcome.bind_eq_ok_iff, List.forall_mem_cons]
      cases hname : isManaged name with
      | true =>
        rw [List.filter_cons_of_neg (by simp [hname])]
        simp only [acceptField_eq_ok_iff_of_isManaged hname, ih]
        constructor
        · rintro ⟨_, ⟨hfield, rfl⟩, hrest, hchanges⟩
          exact ⟨⟨fun _ ↦ hfield, hrest⟩, hchanges⟩
        · rintro ⟨⟨hfield, hrest⟩, hchanges⟩
          exact ⟨row, ⟨hfield trivial, rfl⟩, hrest, hchanges⟩
      | false =>
        rw [List.filter_cons_of_pos (by simp [hname]), List.foldlM_cons, Outcome.bind_eq_ok_iff]
        simp only [ih]
        constructor
        · rintro ⟨next, hnext, hrest, hchanges⟩
          exact ⟨⟨(absurd · Bool.false_ne_true), hrest⟩, next, hnext, hchanges⟩
        · rintro ⟨⟨-, hrest⟩, next, hnext, hchanges⟩
          exact ⟨next, hnext, hrest, hchanges⟩
  | null | bool b | number n | text s | array items =>
    constructor
    · intro h
      cases h
    · exact And.right

/-- Bodies that differ in managed fields only write the same fields. -/
theorem acceptBody_eq_ok_of_withoutManaged {body' : Json} (h : m.acceptBody body = .ok changes)
    (hsame : body'.withoutManaged = body.withoutManaged) (hdeclared : m.DeclaresManagedOf body') :
    m.acceptBody body' = .ok changes :=
  acceptBody_eq_ok_iff.mpr ⟨hdeclared, hsame ▸ (acceptBody_eq_ok_iff.mp h).2⟩

theorem valueOf_of_newRow (hbody : body.Keyed) (h : m.newRow identity now body = .ok row) (id : Int)
    (hname : isManaged name = false) :
    Row.valueOf (row.insert "id" (.int id)) name = Operation.valueAfter .create none body name := by
  obtain ⟨changes, hchanges, -, rfl⟩ := exists_of_newRow h
  rw [Row.valueOf, Row.get?_insert_id _ _ hname, Row.get?_stampCreated _ _ _ hname,
    get?_of_acceptBody hbody hchanges, hname, Operation.valueAfter]
  cases body.field? name <;> rfl

/-- An updated row has the fields of its body, and a patched one also those that it had before. -/
theorem valueOf_of_changedRow {mode : UpdateMode} (hbody : body.Keyed)
    (hchanges : m.acceptBody body = .ok changes)
    (h : m.changedRow mode identity now stored changes = .ok row) (id : Int)
    (hname : isManaged name = false) :
    Row.valueOf (row.insert "id" (.int id)) name
      = mode.operation.valueAfter (some stored) body name := by
  rw [Row.valueOf, Row.get?_insert_id _ _ hname, Operation.valueAfter]
  cases mode with
  | patch =>
    rw [get?_of_patch h (not_mem_updateStamps hname), get?_of_acceptBody hbody hchanges, hname]
    cases body.field? name <;> rfl
  | replace =>
    rw [get?_of_replace h (not_mem_updateStamps hname), get?_of_acceptBody hbody hchanges, hname]
    cases body.field? name <;> rfl

end Model

/-! ## Reading one field -/

theorem Text.commaList_eq_singleton {name : String} (hne : name ≠ "") (hcomma : ',' ∉ name.toList)
    (htrim : Text.trim name = name) : Text.commaList name = [name] := by
  have hstrip : Text.strip Text.isBlank name.toList = name.toList := by
    have htext := congrArg String.toList htrim
    rwa [Text.trim, String.toList_ofList] at htext
  have hfilled : name.toList.isEmpty = false :=
    List.isEmpty_eq_false_iff.mpr (mt String.toList_eq_nil_iff.mp hne)
  rw [commaList, splitOn_eq_singleton hcomma, List.map_singleton, hstrip,
    List.filter_cons_of_pos (by rw [hfilled]; rfl), List.filter_nil, List.map_singleton,
    String.ofList_toList]

theorem Model.fieldsToShow_eq_singleton {m : Model} {p : Parameters} {name : String}
    (hasked : p.first? "_fields" = some name) (hlist : Text.commaList name = [name])
    (hfield : m.hasField name = true) : m.fieldsToShow p = [name] := by
  rw [fieldsToShow, Parameters.fields?, hasked, Option.map_some, hlist, Option.map_some,
    List.filter_cons_of_pos hfield, List.filter_nil]
  rfl

namespace Service

/-- A request asks for one field of the row under an id of a model, and may see the row. -/
structure AsksForField (service : Service) (s : Store) (request : Request) (m : Model) (id : Int)
    (row : Row) (name : String) : Prop where
  method : request.method = "GET"
  addressed : ∃ segment,
    service.addressed? request = some (.detail, [m.key.app, m.key.model, segment]) ∧
      Text.readInt64? segment = some id
  asked : (Parameters.ofPairs request.pairs).first? "_fields" = some name
  visible : ∃ identity visibility, service.identification.identify request.headers = .ok identity ∧
    m.requireReading identity = .ok () ∧
    s.registry.visibleRows m identity (.ofPairs request.pairs) = .ok visibility ∧
    s.holds m row visibility = true

variable {service : Service} {now : Instant} {s : Store} {request : Request} {m : Model} {id : Int}
  {operation : Operation} {path : List String} {before after : Option Row} {row : Row}
  {name : String} {body : Json}

theorem response_respond (hmethod : request.method ≠ "HEAD") :
    (service.respond now s request).1 = responseOf (service.answer now s request) := by
  have hhead : (request.method == "HEAD") = false := beq_eq_false_iff_ne.mpr hmethod
  rw [respond, hhead]
  cases service.answer now s request <;> rfl

theorem AsksForField.response_eq (h : service.AsksForField s request m id row name)
    (hm : s.registry.get? m.key = some m) (hids : s.KeepsIds)
    (hrow : s.get m.key id = .ok (some row)) (hfield : m.hasField name = true)
    (hlist : Text.commaList name = [name]) (now : Instant) :
    (service.respond now s request).1 = {
      status := 200
      etag := some (EntityTag.ofVersion row.version)
      content := .json (.object [(name, row.valueOf name)]) } := by
  obtain ⟨segment, haddressed, hid⟩ := h.addressed
  obtain ⟨identity, visibility, hidentity, hreading, hvisible, hholds⟩ := h.visible
  obtain ⟨t, ht, hget⟩ := Store.get_eq_ok_iff.mp hrow
  have hfound : s.addressed? m t visibility segment = some row := by
    rw [Store.addressed?, hid, Option.bind_some, hget, Option.filter_some, if_pos hholds]
  have hmethod : request.method ≠ "HEAD" := by
    rw [h.method]
    decide
  rw [response_respond hmethod, answer_of_addressed? haddressed, perform_detail,
    detailing_eq hm ht hids hidentity hreading hvisible, hfound]
  dsimp only
  rw [Model.detailResponse, Model.fieldsToShow_eq_singleton h.asked hlist hfield]
  rfl

/-! ## Writing a body -/

/-- A success of an operation that writes is one step of one row. -/
theorem exists_rowStep_of_isSuccess {key : ModelKey}
    (haddressed : service.addressed? request = some (operation, key.app :: key.model :: path))
    (hwrites : operation.action? ≠ none)
    (hsuccess : (service.respond now s request).1.isSuccess = true) :
    ∃ m id before after, s.registry.get? key = some m ∧
      s.ChangesOnly (service.respond now s request).2 key id before after ∧
      service.RowStep now request m id operation path before after := by
  obtain ⟨response, s', hanswer, -⟩ := isSuccess_respond_iff.mp hsuccess
  obtain ⟨operation', segments, haddressed', hperform⟩ := exists_of_answer_eq_ok hanswer
  obtain ⟨rfl, rfl⟩ := Prod.mk.inj (Option.some.inj (haddressed.symm.trans haddressed'))
  obtain ⟨-, app, model, path', m, id, before, after, hsegments, hm, hchanges, hstep⟩ :=
    ((reads_or_performs_of_perform hperform).resolve_left fun h ↦ hwrites h.1).exists_rowStep
  rw [List.cons.injEq, List.cons.injEq] at hsegments
  obtain ⟨rfl, rfl, rfl⟩ := hsegments
  rw [(respond_of_answer_ok hanswer).2]
  exact ⟨m, id, before, after, hm, hchanges, hstep⟩

theorem RowStep.get?_id (h : service.RowStep now request m id operation path before (some row)) :
    row.get? "id" = some (.int id) := by
  cases h with
  | create | update | unlink => rw [Ordered.get?_insert, if_pos rfl]

theorem keepsIds_respond (service : Service) (now : Instant) (request : Request) (h : s.KeepsIds) :
    (service.respond now s request).2.KeepsIds := by
  intro key id row hrow
  rcases service.row_of_respond now s request key id with
    ⟨hsame, -⟩ | ⟨m, before, after, hm, hwrites⟩
  · exact h key id row (hsame ▸ hrow)
  · obtain ⟨operation, path, -, hstep⟩ := hwrites.step
    obtain rfl := ((s.registry.get?_eq_some_iff _ _).mp hm).2
    obtain rfl : after = some row := Except.ok.inj (hwrites.get_after.symm.trans hrow)
    exact hstep.get?_id

theorem keepsIds_after (service : Service) (requests : List (Instant × Request)) (h : s.KeepsIds) :
    (service.after s requests).KeepsIds := by
  induction requests generalizing s with
  | nil => exact h
  | cons first rest ih => exact ih (service.keepsIds_respond first.1 first.2 h)

/-- What a write by a body makes of the row that was there. -/
theorem RowStep.of_body (h : service.RowStep now request m id operation path before after)
    (hoperation : operation ∈ [Operation.create, .replace, .patch])
    (hbody : readBody request = .ok body) :
    ∃ row changes, after = some row ∧ m.acceptBody body = .ok changes ∧
      (∀ name, isManaged name = false →
        row.valueOf name = operation.valueAfter before body name) ∧
      (operation = .create → before = none) ∧
      (operation ≠ .create → ∃ segment found, path = [segment] ∧
        Text.readInt64? segment = some id ∧ before = some found ∧
        ∀ name ∈ ["created_time", "created_by"], row.get? name = found.get? name) := by
  have hkeyed : body.Keyed := Json.keyed_of_parse? (parse?_of_readBody hbody)
  cases h with
  | create hdecoded hidentity hmade =>
    obtain rfl := Except.ok.inj (hdecoded.symm.trans hbody)
    obtain ⟨changes, hchanges, -, -⟩ := Model.exists_of_newRow hmade
    exact ⟨_, changes, rfl, hchanges,
      fun name hname ↦ Model.valueOf_of_newRow hkeyed hmade id hname, fun _ ↦ rfl,
      fun hne ↦ absurd rfl hne⟩
  | @update mode segment _ found row haddressed hdecoded hmade =>
    obtain rfl := Except.ok.inj (hdecoded.symm.trans hbody)
    obtain ⟨identity, changes, -, hchanges, hchanged⟩ := Model.exists_of_updatedRow hmade
    have hcreated : ∀ name ∈ ["created_time", "created_by"],
        name ≠ "id" ∧ name ∉ updateStamps ∧ isManaged name = true := by decide
    have hnotCreate : mode.operation ≠ .create := by cases mode <;> decide
    refine ⟨_, changes, rfl, hchanges,
      fun name hname ↦ Model.valueOf_of_changedRow hkeyed hchanges hchanged id hname,
      fun hcreate ↦ absurd hcreate hnotCreate,
      fun _ ↦ ⟨segment, found, rfl, haddressed, rfl, fun name hname ↦ ?_⟩⟩
    obtain ⟨hne, hstamps, hmanaged⟩ := hcreated name hname
    rw [Ordered.get?_insert, if_neg hne,
      Model.get?_of_changedRow_of_isManaged hchanges hchanged hmanaged hstamps]
  | unlink => exact absurd hoperation (by decide)
  | delete => exact absurd hoperation (by decide)

/-! ## Bodies without managed fields -/

theorem readBody_withBody {text : String} {body' : Json} (h : readBody request = .ok body)
    (htext : Json.parse? text = some body') :
    readBody { request with body := text } = .ok body' := by
  rw [readBody] at h ⊢
  split at h
  · cases h
  · next hdeclared => rw [if_neg hdeclared, htext]

/-- Bodies that write the same fields have the same outcome. -/
theorem RowStep.perform_withBody {app model text : String} {body' : Json}
    (h : service.RowStep now request m id operation path before after)
    (hoperation : operation ∈ [Operation.create, .replace, .patch])
    (hm : s.registry.get? ⟨app, model⟩ = some m) (hbody : readBody request = .ok body)
    (htext : Json.parse? text = some body') (haccepts : m.acceptBody body' = m.acceptBody body) :
    service.perform now s { request with body := text } operation (app :: model :: path)
      = service.perform now s request operation (app :: model :: path) := by
  have hbody' := readBody_withBody hbody htext
  have hmodel := Registry.modelOf_eq_ok_iff.mpr hm
  cases h with
  | create =>
    have hcreate : ∀ identity, s.create m identity now body' = s.create m identity now body := by
      intro identity
      rw [Store.create, Store.create, Model.newRow, Model.newRow, haccepts]
    rw [perform, perform, hbody, hbody']
    dsimp only [bind, Except.bind]
    rw [hmodel]
    dsimp only
    simp only [hcreate]
    rfl
  | @update mode segment =>
    have hchange : ∀ requester headers, s.change m mode requester headers now segment body'
        = s.change m mode requester headers now segment body := by
      intro requester headers
      rw [Store.change, Store.change]
      simp only [Model.updatedRow, haccepts]
    cases mode <;>
    · rw [UpdateMode.operation, perform, perform, hbody, hbody']
      dsimp only [bind, Except.bind]
      rw [hmodel]
      dsimp only
      rw [hchange]
      rfl
  | unlink => exact absurd hoperation (by decide)
  | delete => exact absurd hoperation (by decide)

theorem RowStep.respond_withBody {app model text : String} {body' : Json}
    (h : service.RowStep now request m id operation path before after)
    (haddressed : service.addressed? request = some (operation, app :: model :: path))
    (hoperation : operation ∈ [Operation.create, .replace, .patch])
    (hm : s.registry.get? ⟨app, model⟩ = some m) (hbody : readBody request = .ok body)
    (htext : Json.parse? text = some body') (haccepts : m.acceptBody body' = m.acceptBody body) :
    service.respond now s { request with body := text } = service.respond now s request := by
  -- The operation is told from the method and the target, whatever the body is.
  have haddressed' : service.addressed? { request with body := text }
      = some (operation, app :: model :: path) := haddressed
  rw [respond, respond, answer_of_addressed? haddressed', answer_of_addressed? haddressed,
    h.perform_withBody hoperation hm hbody htext haccepts]

/-- Writes read back field by field. In a store that has every row with its id, let a create, a
replacement or a patch succeed by a body. A create puts its row under an id that was free; an update
changes the row under the id of its path, which keeps its id and the moment and the author of its
creation. Whoever may see the row afterwards and asks for one field of it that is declared and not
managed, is shown that field alone, with the value that the body gives to it, and otherwise, after a
patch, with the value it had, or else with null. What the body says of managed fields does not
count: without them, and with any others that are declared, it has the same response and leaves the
same store behind. -/
theorem writes_read_back (service : Service) (s : Store) (key : ModelKey) (now : Instant)
    (request : Request) (operation : Operation) (path : List String) (body : Json)
    (hids : s.KeepsIds)
    (haddressed : service.addressed? request = some (operation, key.app :: key.model :: path))
    (hoperation : operation ∈ [Operation.create, .replace, .patch])
    (hbody : readBody request = .ok body)
    (hsuccess : (service.respond now s request).1.isSuccess = true) :
    let s' := (service.respond now s request).2
    ∃ m id before row, s.registry.get? key = some m ∧ s.get key id = .ok before ∧
      s'.get key id = .ok (some row) ∧ (operation = .create → before = none) ∧
      (operation ≠ .create → ∃ segment found, path = [segment] ∧
        Text.readInt64? segment = some id ∧ before = some found ∧
        ∀ name ∈ ["id", "created_time", "created_by"], row.get? name = found.get? name) ∧
      (∀ name, m.hasField name = true → isManaged name = false → name ≠ "" →
        ',' ∉ name.toList → Text.trim name = name →
        ∀ now' request', service.AsksForField s' request' m id row name →
          (service.respond now' s' request').1 = {
            status := 200
            etag := some (EntityTag.ofVersion row.version)
            content := .json (.object [(name, operation.valueAfter before body name)]) }) ∧
      ∀ text body', Json.parse? text = some body' → body'.withoutManaged = body.withoutManaged →
        m.DeclaresManagedOf body' →
        service.respond now s { request with body := text } = service.respond now s request := by
  intro s'
  have hwrites : operation.action? ≠ none := by
    have hactions : ∀ operation ∈ [Operation.create, .replace, .patch],
        operation.action? ≠ none := by decide
    exact hactions operation hoperation
  obtain ⟨m, id, before, after, hm, hchanges, hstep⟩ :=
    exists_rowStep_of_isSuccess haddressed hwrites hsuccess
  obtain ⟨row, changes, rfl, hchanges', hvalues, hcreate, hupdate⟩ :=
    hstep.of_body hoperation hbody
  obtain rfl : m.key = key := ((s.registry.get?_eq_some_iff _ _).mp hm).2
  have hids' : s'.KeepsIds := service.keepsIds_respond now request hids
  have hm' : s'.registry.get? m.key = some m := by rwa [hchanges.registry]
  refine ⟨m, id, before, row, hm, hchanges.get_before, hchanges.get_after, hcreate,
    fun hne ↦ ?_, fun name hfield hname hne hcomma htrim now' request' hasks ↦ ?_,
    fun text body' htext hsame hdeclared ↦ ?_⟩
  · obtain ⟨segment, found, hpath, hsegment, rfl, hkept⟩ := hupdate hne
    refine ⟨segment, found, hpath, hsegment, rfl, fun name hname ↦ ?_⟩
    rcases List.mem_cons.mp hname with rfl | hname
    · rw [hstep.get?_id, hids m.key id found hchanges.get_before]
    · exact hkept name hname
  · rw [hasks.response_eq hm' hids' hchanges.get_after hfield
      (Text.commaList_eq_singleton hne hcomma htrim), hvalues name hname]
  · have haccepts := Model.acceptBody_eq_ok_of_withoutManaged hchanges' hsame hdeclared
    exact hstep.respond_withBody haddressed hoperation hm hbody htext
      (haccepts.trans hchanges'.symm)

end Service

/-! ## A book that is patched -/

namespace Books

/-- Books with a title and a year. -/
def book : Model where
  key := ⟨"core", "book"⟩
  tier := .public
  fields := implicitFields.insertAll [("title", ⟨.text, none⟩), ("year", ⟨.integer, none⟩)]

def registry : Registry where
  settings := {}
  identityModel := ⟨"auth", "user"⟩
  models := [book]
  distinct := by decide

/-- A book is created with a title and no year. -/
def creating : Request where
  method := "POST"
  target := "/core/book/create"
  headers := Notes.editor
  body := "\x7b\"title\":\"a\"\x7d"

/-- The first book is given a year, by a body that also names its id and its version. -/
def dating : Request where
  method := "PATCH"
  target := "/core/book/update/1"
  headers := Notes.editor
  body := "\x7b\"id\":5,\"year\":8,\"version_number\":9\x7d"

/-- A request for one field of the first book. -/
def asking (field : String) : Request where
  method := "GET"
  target := "/core/book/1?_fields=" ++ field

/-- The year that a body names, if it names nothing else. -/
def yearAlone? : Json → Option Int
  | .object [(name, value)] => if name = "year" then value.asInt64? else none
  | _ => none

theorem eq_of_yearAlone? {body : Json} {year : Int} (h : yearAlone? body = some year) :
    body = .object [("year", .int year)] := by
  rw [yearAlone?.eq_def] at h
  split at h
  · obtain ⟨rfl, hvalue⟩ := Option.ite_none_right_eq_some.mp h
    rw [(Json.asInt64?_eq_some_iff.mp hvalue).2]
  · exact nomatch h

/-- The patched book is read back field by field: the year is the one of the body, and the title is
the one before. A body that names an author of the creation in place of the id and the version does
the same. -/
theorem dated_book_read_back :
    let service : Service := {}
    let s := service.after (.new registry) [(⟨0, 0⟩, creating)]
    let s' := (service.respond ⟨1, 0⟩ s dating).2
    let shown := fun field ↦ (service.respond ⟨2, 0⟩ s' (asking field)).1.content
    shown "year" = .json (.object [("year", .int 8)]) ∧
    (∃ found, s.get book.key 1 = .ok (some found) ∧ (found.valueOf "title").asText? = some "a" ∧
      shown "title" = .json (.object [("title", found.valueOf "title")])) ∧
    service.respond ⟨1, 0⟩ s { dating with body := "\x7b\"created_by\":\"b\",\"year\":8\x7d" }
      = service.respond ⟨1, 0⟩ s dating := by
  intro service s s' shown
  obtain ⟨body, hbody, hyear⟩ := Outcome.toOption_map_eq_some_iff.mp
    (by decide +kernel : (Service.readBody dating).toOption.map
      (fun body ↦ yearAlone? body.withoutManaged) = some (some 8))
  have hwithout : body.withoutManaged = .object [("year", .int 8)] := eq_of_yearAlone? hyear
  have hgiven : ∀ name, isManaged name = false →
      body.field? name = if name = "year" then some (.int 8) else none := by
    intro name hname
    rw [← body.field?_withoutManaged hname, hwithout, Json.field?, lookup_cons_eq_ite]
    rfl
  have hids : s.KeepsIds := service.keepsIds_after _ (Store.Reachable.new (r := registry)).keepsIds
  obtain ⟨m, id, before, row, hm, hbefore, -, -, hupdate, hshown, hsame⟩ :=
    service.writes_read_back s book.key ⟨1, 0⟩ dating .patch ["1"] body hids (by decide +kernel)
      (by decide) hbody (by decide +kernel)
  have hregistry : s.registry = registry := service.registry_after (.new registry) _
  have hregistry' : s'.registry = registry :=
    (service.registry_respond ⟨1, 0⟩ s dating).trans hregistry
  have hbook : registry.get? book.key = some book :=
    (registry.get?_eq_some_iff _ _).mpr ⟨List.mem_singleton_self book, rfl⟩
  obtain rfl : book = m := Option.some.inj (hbook.symm.trans (hregistry ▸ hm))
  obtain ⟨segment, found, hpath, hid, rfl, -⟩ := hupdate (by decide)
  obtain rfl := (List.cons.inj hpath).1
  obtain rfl : 1 = id := Option.some.inj ((by decide : some 1 = Text.readInt64? "1").trans hid)
  have hasks : ∀ field ∈ ["year", "title"],
      service.AsksForField s' (asking field) book 1 row field := by
    intro field hfield
    have haddressed : ∀ field ∈ ["year", "title"],
        service.addressed? (asking field) = some (.detail, ["core", "book", "1"]) ∧
          (Parameters.ofPairs (asking field).pairs).first? "_fields" = some field := by
      decide +kernel
    exact {
      method := rfl
      addressed := ⟨"1", (haddressed field hfield).1, by decide⟩
      asked := (haddressed field hfield).2
      visible := ⟨.anonymous, .always, rfl,
        Model.requireReading_eq_ok_iff.mpr fun h ↦ absurd h (by decide +kernel),
        by rw [hregistry']; rfl, s'.holds_always⟩ }
  have hread : ∀ field ∈ ["year", "title"], book.hasField field = true ∧ isManaged field = false ∧
      field ≠ "" ∧ ',' ∉ field.toList ∧ Text.trim field = field := by decide +kernel
  have hfield : ∀ field ∈ ["year", "title"], shown field
      = .json (.object [(field, Operation.valueAfter .patch (some found) body field)]) := by
    intro field hfield
    obtain ⟨hdeclared, hfree, hne, hcomma, htrim⟩ := hread field hfield
    dsimp only [shown]
    rw [hshown field hdeclared hfree hne hcomma htrim ⟨2, 0⟩ (asking field) (hasks field hfield)]
  refine ⟨?_, ⟨found, hbefore, ?_, ?_⟩, ?_⟩
  · rw [hfield "year" (by simp), Operation.valueAfter, hgiven _ (by decide)]
    rfl
  · have htitle : (s.get book.key 1).toOption.map (fun before ↦
        before.map fun row ↦ (row.valueOf "title").asText?) = some (some (some "a")) := by
      decide +kernel
    rw [hbefore] at htitle
    exact Option.some.inj (Option.some.inj htitle)
  · rw [hfield "title" (by simp), Operation.valueAfter, hgiven _ (by decide)]
    rfl
  · obtain ⟨other, hparsed, hother⟩ := Option.map_eq_some_iff.mp
      (by decide +kernel : (Json.parse? "\x7b\"created_by\":\"b\",\"year\":8\x7d").map
        (fun body ↦ yearAlone? body.withoutManaged) = some (some 8))
    have hdeclared : ∀ name ∈ managedFields, book.hasField name = true := by decide +kernel
    exact hsame _ other hparsed ((eq_of_yearAlone? hother).trans hwithout.symm)
      fun name hname _ ↦ hdeclared name (List.contains_iff_mem.mp hname)

end Books

end RowAccess

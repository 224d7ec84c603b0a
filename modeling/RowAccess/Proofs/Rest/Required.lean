import RowAccess.Proofs.Rest.Lineage

/-!
# Required fields of stored rows

A creation and a replacement are refused unless their bodies give every required field a value, and
an unlinked item leaves an array behind. A patch is not checked: it writes what its body gives, and
a body may give null. So a stored row has its required fields, unless a patch has taken one away and
no request has given it back since: this is the only way.
-/

namespace RowAccess

/-- A row has a value other than null in a field. -/
def Row.Has (row : Row) (field : String) : Prop := (row.valueOf field).isNull = false

theorem Row.has_congr {row other : Row} {field : String} (h : row.get? field = other.get? field) :
    row.Has field ↔ other.Has field := by
  rw [Has, Has, valueOf, valueOf, h]

theorem Row.not_has_iff {row : Row} {field : String} :
    ¬row.Has field ↔ row.get? field = none ∨ row.get? field = some .null := by
  rw [Has, valueOf]
  cases row.get? field with
  | none => simp [Json.isNull]
  | some value => cases value <;> simp [Json.isNull]

namespace Model

variable {m : Model} {identity : Identity} {now : Instant} {stored changes row : Row}
  {field : String}

theorem isManaged_of_acceptBody {body : Json} (h : m.acceptBody body = .ok changes)
    (hfield : changes.Has field) : isManaged field = false := by
  refine Bool.eq_false_iff.mpr fun hmanaged ↦ ?_
  refine Row.not_has_iff.mpr (.inl ?_) hfield
  exact get?_eq_none_of_acceptBody h hmanaged

theorem has_of_newRow {body : Json} (h : m.newRow identity now body = .ok row)
    (hfield : field ∈ m.requiredFields) : isManaged field = false ∧ row.Has field := by
  obtain ⟨changes, hchanges, hrequired, rfl⟩ := exists_of_newRow h
  have hhas : changes.Has field := requireFields_eq_ok_iff.mp hrequired field hfield
  have hfree := isManaged_of_acceptBody hchanges hhas
  exact ⟨hfree, (Row.has_congr (changes.get?_stampCreated identity now hfree)).mpr hhas⟩

theorem has_of_replace {body : Json} (hchanges : m.acceptBody body = .ok changes)
    (h : m.changedRow .replace identity now stored changes = .ok row)
    (hfield : field ∈ m.requiredFields) : row.Has field := by
  have hhas : changes.Has field :=
    requireFields_eq_ok_iff.mp (requireFields_of_replace h) field hfield
  have hfree := isManaged_of_acceptBody hchanges hhas
  refine (Row.has_congr ?_).mpr hhas
  rw [get?_of_replace h (not_mem_updateStamps hfree), hfree, if_neg Bool.false_ne_true]

theorem get?_of_patch_not_has (h : m.changedRow .patch identity now stored changes = .ok row)
    (hfree : isManaged field = false) (hstored : stored.Has field) (hrow : ¬row.Has field) :
    changes.get? field = some .null := by
  have hget := get?_of_patch h (not_mem_updateStamps hfree)
  cases hgiven : changes.get? field with
  | none =>
    rw [hgiven, Option.none_or] at hget
    exact absurd ((Row.has_congr hget).mpr hstored) hrow
  | some value =>
    rw [hgiven, Option.some_or] at hget
    exact (Row.not_has_iff.mp hrow).resolve_left (by rw [hget]; exact nofun) ▸ hget.symm

theorem has_of_unlinkedRow {requester : Except Fault Identity} {link itemModel item : String}
    (h : m.unlinkedRow requester now stored link itemModel item = .ok row)
    (hfree : isManaged field = false) (hstored : stored.Has field) : row.Has field := by
  rcases get?_of_unlinkedRow h (not_mem_updateStamps hfree) with hsame | ⟨items, keep, -, hleft⟩
  · exact (Row.has_congr hsame).mpr hstored
  · rw [Row.Has, Row.valueOf, hleft]
    rfl

end Model

namespace Service

variable {service : Service} {now : Instant} {s : Store} {request : Request} {m : Model} {id : Int}
  {operation : Operation} {path : List String} {found row : Row} {field : String}

/-! ## Steps of a row -/

theorem parse?_of_readBody {body : Json} (h : readBody request = .ok body) :
    Json.parse? request.body = some body := by
  rw [readBody] at h
  split at h
  · cases h
  · split at h
    · next hparsed => rw [hparsed, Except.ok.inj h]
    · cases h

/-- A step takes a required field away only as a patch whose body gives null. -/
theorem RowStep.not_has
    (h : service.RowStep now request m id operation path (some found) (some row))
    (hfield : field ∈ m.requiredFields) (hfree : isManaged field = false)
    (hfound : found.Has field) (hrow : ¬row.Has field) :
    operation = .patch ∧ ∃ fields, Json.parse? request.body = some (.object fields) ∧
      (field, .null) ∈ fields := by
  cases h with
  | @update mode _ _ _ _ _ hbody hmade =>
    rw [Row.has_congr (Row.get?_insert_id _ _ hfree)] at hrow
    obtain ⟨identity, changes, -, hchanges, hchanged⟩ := Model.exists_of_updatedRow hmade
    cases mode with
    | replace => exact absurd (Model.has_of_replace hchanges hchanged hfield) hrow
    | patch =>
      have hnull := Model.get?_of_patch_not_has hchanged hfree hfound hrow
      obtain ⟨fields, _, rfl, hmem, -⟩ := Model.exists_of_get?_acceptBody hchanges hnull
      exact ⟨rfl, fields, parse?_of_readBody hbody, hmem⟩
  | unlink _ hmade =>
    rw [Row.has_congr (Row.get?_insert_id _ _ hfree)] at hrow
    exact absurd (Model.has_of_unlinkedRow hmade hfree hfound) hrow

/-- A request succeeds in patching the row under an id with a body that gives null for a field. -/
structure TakesAway (service : Service) (now : Instant) (s : Store) (request : Request)
    (key : ModelKey) (id : Int) (field : String) : Prop where
  addressed : service.addressedRow? request = some (.patch, key, id)
  success : (service.respond now s request).1.isSuccess = true
  given : ∃ fields, Json.parse? request.body = some (.object fields) ∧ (field, .null) ∈ fields

theorem Writes.takesAway (h : service.Writes now s request m id (some found) (some row))
    (hfield : field ∈ m.requiredFields) (hfree : isManaged field = false)
    (hfound : found.Has field) (hrow : ¬row.Has field) :
    service.TakesAway now s request m.key id field := by
  obtain ⟨operation, path, haddressed, hstep⟩ := h.step
  obtain ⟨rfl, hgiven⟩ := hstep.not_has hfield hfree hfound hrow
  exact ⟨hstep.addressedRow?_eq haddressed rfl, h.success, hgiven⟩

/-! ## Stored rows -/

variable {r : Registry} {requests : List (Instant × Request)}

/-- No body gives a managed field, so a model that requires one has no rows. -/
theorem Lineage.isManaged_of_required (h : service.Lineage r m id requests row)
    (hfield : field ∈ m.requiredFields) : isManaged field = false := by
  refine h.invariant (P := fun _ ↦ isManaged field = false) fun hstep hbefore ↦ ?_
  cases hstep with
  | create _ _ hmade => exact (Model.has_of_newRow hmade hfield).1
  | update => exact hbefore _ rfl
  | unlink => exact hbefore _ rfl

theorem Lineage.has_or_takenAway (h : service.Lineage r m id requests row)
    (hfield : field ∈ m.requiredFields) :
    row.Has field ∨ ∃ earlier first later, requests = earlier ++ first :: later ∧
      service.TakesAway first.1 (service.after (.new r) earlier) first.2 m.key id field ∧
      service.StandsSince r m.key id (fun kept ↦ ¬kept.Has field) earlier first later := by
  have hfree := h.isManaged_of_required hfield
  have hget := h.get
  induction h with
  | created hwrites =>
    obtain ⟨_, _, -, hstep⟩ := hwrites.step
    cases hstep with
    | create _ _ hmade =>
      exact .inl ((Row.has_congr (Row.get?_insert_id _ _ hfree)).mpr
        (Model.has_of_newRow hmade hfield).2)
  | @updated past now request found row hlineage hwrites ih =>
    by_cases hrow : row.Has field
    · exact .inl hrow
    · refine .inr ?_
      rcases ih hlineage.get with hfound | ⟨earlier, first, later, rfl, htakes, hsince⟩
      · exact ⟨past, (now, request), [], rfl, hwrites.takesAway hfield hfree hfound hrow,
          standsSince_nil hget hrow⟩
      · exact ⟨earlier, first, later ++ [(now, request)], by simp, htakes,
          hsince.concat hget hrow⟩
  | @kept past now request row hlineage hstays hquiet ih =>
    rcases ih hlineage.get with hrow | ⟨earlier, first, later, rfl, htakes, hsince⟩
    · exact .inl hrow
    · by_cases hrow : row.Has field
      · exact .inl hrow
      · exact .inr ⟨earlier, first, later ++ [(now, request)], by simp, htakes,
          hsince.concat hget hrow⟩

/-- Over any requests, beginning with an empty store: a stored row lacks a required field if and
only if one of the requests was a patch of the row that succeeded with null for this field, and the
row has stood without the field since then. -/
theorem lacks_required_iff_takenAway (service : Service) (r : Registry)
    (requests : List (Instant × Request)) (m : Model) (hm : m ∈ r.models) (id : Int) (row : Row)
    (hrow : (service.after (.new r) requests).get m.key id = .ok (some row)) (field : String)
    (hfield : field ∈ m.requiredFields) :
    (row.valueOf field).isNull = true ↔
      ∃ earlier first later, requests = earlier ++ first :: later ∧
        service.TakesAway first.1 (service.after (.new r) earlier) first.2 m.key id field ∧
        service.StandsSince r m.key id (fun kept ↦ (kept.valueOf field).isNull = true)
          earlier first later := by
  have hlacks : ∀ kept : Row, ¬kept.Has field ↔ (kept.valueOf field).isNull = true :=
    fun kept ↦ by rw [Row.Has, Bool.not_eq_false]
  have hlineage := service.lineage_of_get ((r.get?_eq_some_iff _ _).mpr ⟨hm, rfl⟩) hrow
  simp only [← hlacks]
  constructor
  · exact (hlineage.has_or_takenAway hfield).resolve_left
  · rintro ⟨earlier, first, later, rfl, -, hsince⟩
    obtain ⟨kept, hkept, hnot⟩ := hsince later (List.prefix_refl later)
    rwa [Option.some.inj (Except.ok.inj (hrow.symm.trans hkept))]

end Service

/-! ## Tasks with a title -/

namespace Notes

/-- A task needs a title. -/
def task : Model where
  key := ⟨"core", "task"⟩
  tier := .public
  fields := implicitFields.insert "title" ⟨.text, none⟩
  requiredFields := ["title"]

def taskRegistry : Registry where
  settings := {}
  identityModel := users
  models := [task]
  distinct := by decide

/-- A task is created with a title. -/
def creatingTask : Request where
  method := "POST"
  target := "/core/task/create"
  headers := editor
  body := "\x7b\"title\":\"a\"\x7d"

/-- The title of the first task is overwritten. -/
def retitling (method : String) : Request where
  method := method
  target := "/core/task/update/1"
  headers := editor
  body := "\x7b\"title\":null\x7d"

def lacksTitle (s : Store) : Option Bool :=
  ((s.get task.key 1).toOption.bind id).map fun row ↦ (row.valueOf "title").isNull

theorem exists_task {s : Store} {lacks : Bool} (h : lacksTitle s = some lacks) :
    ∃ row, s.get task.key 1 = .ok (some row) ∧ (row.valueOf "title").isNull = lacks := by
  obtain ⟨row, hrow, hlacks⟩ := Option.map_eq_some_iff.mp h
  cases hget : s.get task.key 1 with
  | error fault =>
    rw [hget] at hrow
    exact nomatch hrow
  | ok found =>
    rw [hget] at hrow
    exact ⟨row, congrArg Except.ok hrow, hlacks⟩

/-- A replacement without a title is refused, so the task keeps its title. -/
theorem task_keeps_title :
    let service : Service := {}
    let requests : List (Instant × Request) := [(⟨0, 0⟩, creatingTask), (⟨1, 0⟩, retitling "PUT")]
    ∃ row, (service.after (.new taskRegistry) requests).get task.key 1 = .ok (some row) ∧
      (row.valueOf "title").isNull = false ∧
      ¬∃ earlier first later, requests = earlier ++ first :: later ∧
        service.TakesAway first.1 (service.after (.new taskRegistry) earlier) first.2 task.key 1
          "title" ∧
        service.StandsSince taskRegistry task.key 1
          (fun kept ↦ (kept.valueOf "title").isNull = true) earlier first later := by
  intro service requests
  have hstate : lacksTitle (service.after (.new taskRegistry) requests) = some false := by
    decide +kernel
  obtain ⟨row, hrow, hkeeps⟩ := exists_task hstate
  have hiff := service.lacks_required_iff_takenAway taskRegistry requests task
    (by simp [taskRegistry]) 1 row hrow "title" (by simp [task])
  refine ⟨row, hrow, hkeeps, fun htaken ↦ ?_⟩
  exact absurd ((hiff.mpr htaken).symm.trans hkeeps) (by decide)

/-- A patch with null for the title succeeds, and leaves a task without one. -/
theorem task_loses_title :
    let service : Service := {}
    let earlier := service.after (.new taskRegistry) [(⟨0, 0⟩, creatingTask)]
    let later := service.after (.new taskRegistry)
      [(⟨0, 0⟩, creatingTask), (⟨1, 0⟩, retitling "PATCH")]
    "title" ∈ task.requiredFields ∧
      (∃ row, earlier.get task.key 1 = .ok (some row) ∧ (row.valueOf "title").isNull = false) ∧
      ∃ row, later.get task.key 1 = .ok (some row) ∧ (row.valueOf "title").isNull = true := by
  intro service earlier later
  exact ⟨by simp [task], exists_task (by decide +kernel), exists_task (by decide +kernel)⟩

end Notes

end RowAccess

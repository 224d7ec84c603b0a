import RowAccess.Proofs.Rest.Requests
import RowAccess.Proofs.Store.Selection

/-!
# What a list request is answered with

A list request that succeeds has identified its requester, and shows a window of the rows that its
plan selects: those that are visible to the requester and that every step of the plan keeps.
-/

namespace RowAccess

/-- The plan of a list request under a visibility. -/
def Registry.planUnder (r : Registry) (m : Model) (p : Parameters) (visibility : Predicate) :
    Plan :=
  let filter := compileParameters p r m .filter
  let exclude := compileParameters p r m .exclude
  { Plan.combine visibility filter exclude with sort := p.sort }

theorem Registry.listPlan_eq_ok_iff {r : Registry} {m : Model} {identity : Identity}
    {p : Parameters} {plan : Plan} :
    r.listPlan m identity p = .ok plan ↔
      ∃ visibility, r.visibleRows m identity p = .ok visibility ∧
        plan = r.planUnder m p visibility := by
  rw [listPlan, Outcome.bind_eq_ok_iff]
  exact exists_congr fun visibility ↦ and_congr_right fun _ ↦
    Outcome.pure_eq_ok_iff.trans ⟨Eq.symm, Eq.symm⟩

/-- The response that shows a window of several rows. -/
def Model.listResponse (m : Model) (p : Parameters) (window : Window) (rows : List Row) :
    Response :=
  .ofJson (.object
    [("results", .array ((window.slice rows).map fun row ↦
        (row.project (m.fieldsToShow p)).toJson)),
      ("pagination", (⟨window.offset, window.limit, rows.length⟩ : Pagination).toJson)])

def Response.results (response : Response) : List Json :=
  match response.content with
  | .json (.object fields) => ((fields.lookup "results").bind Json.asArray?).getD []
  | _ => []

theorem Model.results_listResponse (m : Model) (p : Parameters) (window : Window)
    (rows : List Row) :
    (m.listResponse p window rows).results
      = (window.slice rows).map fun row ↦ (row.project (m.fieldsToShow p)).toJson :=
  rfl

/-- A list request succeeds if its requester may read the model and its plan and its window can be
worked out, and then shows that window of the rows that the plan selects. -/
theorem Store.list_eq_ok_iff {s : Store} {m : Model} {identity : Identity} {p : Parameters}
    {response : Response} :
    s.list m identity p = .ok response ↔ m.requireReading identity = .ok () ∧
      ∃ plan window rows, s.registry.listPlan m identity p = .ok plan ∧
        s.listWindow m plan p = .ok window ∧ s.selected m.key plan = .ok rows ∧
        response = m.listResponse p window rows := by
  rw [list, Outcome.check_bind_eq_ok_iff]
  refine and_congr_right fun _ ↦ ?_
  simp only [Outcome.bind_eq_ok_iff, Outcome.mapError_eq_ok_iff, select]
  constructor
  · rintro ⟨plan, hplan, window, hwindow, page, ⟨rows, hrows, hpage⟩, hresponse⟩
    obtain rfl := Except.ok.inj hpage
    exact ⟨plan, window, rows, hplan, hwindow, hrows, (Except.ok.inj hresponse).symm⟩
  · rintro ⟨plan, window, rows, hplan, hwindow, hrows, rfl⟩
    exact ⟨plan, hplan, window, hwindow, _, ⟨rows, hrows, rfl⟩, rfl⟩

namespace Service

/-- The response to a list request on a model, with its headers and the pairs of its query. -/
def listing (service : Service) (s : Store) (app model : String) (headers : Headers)
    (pairs : List (String × String)) : Response :=
  responseOf (reading s do
    let m ← s.registry.modelOf app model
    s.list m (← service.identification.identify headers) (.ofPairs pairs))

theorem perform_list (service : Service) (now : Instant) (s : Store) (request : Request)
    (app model : String) :
    responseOf (service.perform now s request .list [app, model])
      = service.listing s app model request.headers request.pairs :=
  rfl

section Listing

variable {service : Service} {s : Store} {app model : String} {m : Model} {identity : Identity}
  {headers : Headers} {pairs : List (String × String)} {response : Response}

theorem listing_eq (hm : s.registry.get? ⟨app, model⟩ = some m) :
    service.listing s app model headers pairs =
      match service.identification.identify headers >>= (s.list m · (.ofPairs pairs)) with
      | .ok response => response
      | .error f => .ofFault f := by
  rw [listing, Registry.modelOf_eq_ok_iff.mpr hm]
  dsimp only [bind, Except.bind]
  cases service.identification.identify headers with
  | error f => rfl
  | ok identity =>
    dsimp only
    cases s.list m identity (.ofPairs pairs) <;> rfl

theorem listing_of_list (hm : s.registry.get? ⟨app, model⟩ = some m)
    (hidentity : service.identification.identify headers = .ok identity)
    (h : s.list m identity (.ofPairs pairs) = .ok response) :
    service.listing s app model headers pairs = response := by
  have houtcome : (service.identification.identify headers >>= (s.list m · (.ofPairs pairs)))
      = .ok response := Outcome.bind_eq_ok_iff.mpr ⟨identity, hidentity, h⟩
  rw [listing_eq hm, houtcome]

end Listing

/-- What a list request on a model has established when it succeeds: the model, the requester and
their visibility, and the rows of the table that the plan of the request selects. -/
structure Selects (service : Service) (s : Store) (app model : String) (headers : Headers)
    (pairs : List (String × String)) (m : Model) (identity : Identity) (visibility : Predicate)
    (t : Table) (rows : List Row) : Prop where
  addressed : s.registry.get? ⟨app, model⟩ = some m
  identified : service.identification.identify headers = .ok identity
  reading : m.requireReading identity = .ok ()
  visible : s.registry.visibleRows m identity (.ofPairs pairs) = .ok visibility
  table : s.table? m.key = some t
  selected : s.selected m.key (s.registry.planUnder m (.ofPairs pairs) visibility) = .ok rows

section Selects

variable {service : Service} {s : Store} {app model : String} {headers : Headers}
  {pairs : List (String × String)} {m : Model} {identity : Identity} {visibility : Predicate}
  {t : Table} {rows : List Row}

theorem Selects.registered
    (h : service.Selects s app model headers pairs m identity visibility t rows) :
    s.registry.get? m.key = some m := by
  have hkey := ((s.registry.get?_eq_some_iff _ m).mp h.addressed).2
  exact hkey ▸ h.addressed

theorem Selects.plan
    (h : service.Selects s app model headers pairs m identity visibility t rows) :
    s.registry.listPlan m identity (.ofPairs pairs)
      = .ok (s.registry.planUnder m (.ofPairs pairs) visibility) :=
  Registry.listPlan_eq_ok_iff.mpr ⟨visibility, h.visible, rfl⟩

theorem Selects.mem_rows
    (h : service.Selects s app model headers pairs m identity visibility t rows) {row : Row} :
    row ∈ rows ↔ row ∈ t.rows ∧
      (s.registry.planUnder m (.ofPairs pairs) visibility).steps.all (s.keeps m row) = true :=
  Store.mem_of_selected h.registered h.table h.selected

theorem exists_selects (h : (service.listing s app model headers pairs).status = 200) :
    ∃ m identity visibility t rows window,
      service.Selects s app model headers pairs m identity visibility t rows ∧
      service.listing s app model headers pairs = m.listResponse (.ofPairs pairs) window rows := by
  obtain ⟨response, houtcome, hresponse⟩ := reading_of_status (by decide) h
  obtain ⟨m, hmodel, houtcome⟩ := Outcome.bind_eq_ok_iff.mp houtcome
  obtain ⟨identity, hidentity, hlist⟩ := Outcome.bind_eq_ok_iff.mp houtcome
  have hm := Registry.modelOf_eq_ok_iff.mp hmodel
  obtain ⟨hreading, plan, window, rows, hplan, -, hrows, hshown⟩ := Store.list_eq_ok_iff.mp hlist
  obtain ⟨visibility, hvisible, rfl⟩ := Registry.listPlan_eq_ok_iff.mp hplan
  obtain ⟨-, hkey⟩ := (s.registry.get?_eq_some_iff _ m).mp hm
  obtain ⟨t, ht⟩ := Store.exists_table (hkey ▸ hm : s.registry.get? m.key = some m)
  exact ⟨m, identity, visibility, t, rows, window,
    ⟨hm, hidentity, hreading, hvisible, ht, hrows⟩, hresponse.trans hshown⟩

end Selects

/-- A list request on a model selects rows of its table, by its filters and under the visibility of
its requester, and is answered with a window of them. -/
structure Lists (service : Service) (now : Instant) (s : Store) (request : Request)
    (app model : String) (m : Model) (identity : Identity) (visibility : Predicate) (t : Table)
    (rows : List Row) : Prop where
  addressed : s.registry.get? ⟨app, model⟩ = some m
  identified : service.identification.identify request.headers = .ok identity
  reading : m.requireReading identity = .ok ()
  visible : s.registry.visibleRows m identity (.ofPairs request.pairs) = .ok visibility
  table : s.table? m.key = some t
  selected :
    s.selected m.key (s.registry.planUnder m (.ofPairs request.pairs) visibility) = .ok rows
  shown : ∃ window, responseOf (service.perform now s request .list [app, model])
    = m.listResponse (.ofPairs request.pairs) window rows

section Lists

variable {service : Service} {now : Instant} {s : Store} {request : Request} {app model : String}
  {m : Model} {identity : Identity} {visibility : Predicate} {t : Table} {rows : List Row}

theorem Lists.key
    (h : service.Lists now s request app model m identity visibility t rows) :
    m.key = ⟨app, model⟩ :=
  ((s.registry.get?_eq_some_iff _ m).mp h.addressed).2

theorem Lists.registered
    (h : service.Lists now s request app model m identity visibility t rows) :
    s.registry.get? m.key = some m :=
  h.key ▸ h.addressed

theorem Lists.mem_rows
    (h : service.Lists now s request app model m identity visibility t rows) {row : Row} :
    row ∈ rows ↔ row ∈ t.rows ∧
      (s.registry.planUnder m (.ofPairs request.pairs) visibility).steps.all (s.keeps m row)
        = true :=
  Store.mem_of_selected h.registered h.table h.selected

theorem exists_lists
    (h : (responseOf (service.perform now s request .list [app, model])).status = 200) :
    ∃ m identity visibility t rows,
      service.Lists now s request app model m identity visibility t rows := by
  obtain ⟨m, identity, visibility, t, rows, window, hselects, hshown⟩ := exists_selects h
  exact ⟨m, identity, visibility, t, rows, {
    addressed := hselects.addressed
    identified := hselects.identified
    reading := hselects.reading
    visible := hselects.visible
    table := hselects.table
    selected := hselects.selected
    shown := ⟨window, hshown⟩ }⟩

end Lists

end Service

end RowAccess

import RowAccess.Proofs.Evaluation.Joining
import RowAccess.Proofs.Query.Listing
import RowAccess.Proofs.Query.Parameters

/-!
# Paging through a list

A client pages through a list by asking for one window after the other, each behind the last one, as
long as an answer says that rows follow. Only the offset changes from request to request, so all of
them select the same rows in the same order, and each answer is the page of this list that begins at
its offset (`isPage_listing`). Every page but the last one is full, so the walk goes on exactly
while there are rows left, and the pages of a walk put together are the list (`Walk.results_eq`).
-/

namespace RowAccess

/-! ## What a client reads -/

namespace Response

/-- What the response to a list request says of its window. -/
def place? (response : Response) (name : String) : Option Json :=
  match response.content with
  | .json (.object fields) =>
    match fields.lookup "pagination" with
    | some (.object place) => place.lookup name
    | _ => none
  | _ => none

/-- Whether the response to a list request says that rows follow. -/
def hasNext (response : Response) : Bool :=
  match response.place? "has_next" with
  | some (.bool b) => b
  | _ => false

/-- A response shows the page of a list that begins at an offset and has so many entries at most,
and says how long the list is and whether entries follow. -/
structure IsPage (response : Response) (entries : List Json) (offset size : Nat) : Prop where
  status : response.status = 200
  results : response.results = (entries.drop offset).take size
  count : response.place? "count" = some (.nat entries.length)
  hasNext : response.hasNext = true ↔ ∃ k, offset + size ≤ k ∧ k < entries.length

end Response

/-! ## Requests at different offsets -/

theorem Registry.visibleRows_congr {r : Registry} {m : Model} {identity : Identity}
    {p q : Parameters} (h : r.selectsProject p = r.selectsProject q) :
    r.visibleRows m identity p = r.visibleRows m identity q := by
  simp only [visibleRows, h]

theorem Registry.listPlan_atOffset (r : Registry) (m : Model) (identity : Identity)
    (pairs : List (String × String)) (offset : Nat) :
    r.listPlan m identity (.ofPairs (Parameters.atOffset pairs offset))
      = r.listPlan m identity (.ofPairs pairs) := by
  have hselects : r.selectsProject (.ofPairs (Parameters.atOffset pairs offset))
      = r.selectsProject (.ofPairs pairs) := by
    rw [selectsProject, selectsProject, Parameters.selectsProject, Parameters.selectsProject,
      Parameters.selectsProjectBare, Parameters.selectsProjectBare,
      Parameters.contains_atOffset _ _ (by decide), Parameters.contains_atOffset _ _ (by decide)]
  rw [listPlan, listPlan, visibleRows_congr hselects]
  simp only [compileParameters, Parameters.filters_atOffset, Parameters.sort,
    Parameters.first?_atOffset pairs offset (by decide : "_sort" ≠ "offset")]

theorem Model.listResponse_atOffset (m : Model) (pairs : List (String × String)) (offset : Nat)
    (window : Window) (rows : List Row) :
    m.listResponse (.ofPairs (Parameters.atOffset pairs offset)) window rows
      = m.listResponse (.ofPairs pairs) window rows := by
  simp only [listResponse, fieldsToShow, Parameters.fields?,
    Parameters.first?_atOffset pairs offset (by decide : "_fields" ≠ "offset")]

/-! ## Pages -/

/-- A response that shows a window of some rows shows a page of the response that shows them all. -/
theorem Model.isPage_listResponse (m : Model) (p : Parameters) (offset size : Nat)
    {rows : List Row} (hrows : rows.length ≤ Text.nat64Max) :
    (m.listResponse p ⟨offset, some size⟩ rows).IsPage (m.listResponse p {} rows).results offset
      size := by
  have hentries : (m.listResponse p {} rows).results
      = rows.map fun row ↦ (row.project (m.fieldsToShow p)).toJson := by
    rw [results_listResponse, Window.slice_default]
  have hlength : (m.listResponse p {} rows).results.length = rows.length := by
    rw [hentries, List.length_map]
  refine ⟨rfl, ?_, by rw [hlength]; rfl, ?_⟩
  · rw [hentries, results_listResponse, Window.slice, List.map_take, List.map_drop]
  · have hnext : (m.listResponse p ⟨offset, some size⟩ rows).hasNext
        = decide (min (offset + size) Text.nat64Max < rows.length) := rfl
    rw [hnext, hlength, decide_eq_true_iff]
    constructor
    · exact fun h ↦ ⟨offset + size, Nat.le_refl _, by omega⟩
    · rintro ⟨k, hlow, hhigh⟩
      omega

/-- The answers of a client that goes on to the next offset as long as an answer says that rows
follow. -/
inductive Walk (answer : Nat → Response) (size : Nat) : Nat → List Response → Prop
  | last {offset : Nat} (h : (answer offset).hasNext = false) :
    Walk answer size offset [answer offset]
  | next {offset : Nat} {rest : List Response} (h : (answer offset).hasNext = true)
    (hrest : Walk answer size (offset + size) rest) :
    Walk answer size offset (answer offset :: rest)

namespace Walk

variable {answer : Nat → Response} {size offset : Nat} {responses others : List Response}
  {entries : List Json}

theorem unique (h : Walk answer size offset responses) (h' : Walk answer size offset others) :
    others = responses := by
  induction h generalizing others with
  | last hlast =>
    cases h' with
    | last _ => rfl
    | next hnext _ => exact absurd (hlast.symm.trans hnext) Bool.false_ne_true
  | next hnext _ ih =>
    cases h' with
    | last hlast => exact absurd (hlast.symm.trans hnext) Bool.false_ne_true
    | next _ hrest => rw [ih hrest]

theorem getElem?_eq (h : Walk answer size offset responses) {i : Nat} (hi : i < responses.length) :
    responses[i]? = some (answer (offset + i * size)) := by
  induction h generalizing i with
  | last _ =>
    obtain rfl := Nat.lt_one_iff.mp hi
    rw [Nat.zero_mul, Nat.add_zero, List.getElem?_cons_zero]
  | next _ _ ih =>
    cases i with
    | zero => rw [Nat.zero_mul, Nat.add_zero, List.getElem?_cons_zero]
    | succ i =>
      rw [List.getElem?_cons_succ, ih (Nat.lt_of_succ_lt_succ hi), Nat.succ_mul, Nat.add_assoc,
        Nat.add_comm size]

/-- A walk through pages ends, since every next page begins behind more of the list. -/
theorem exists_of_isPage {offset : Nat} (hsize : 1 ≤ size)
    (hlength : entries.length ≤ Text.nat64Max)
    (hpage : ∀ offset ≤ Text.nat64Max, (answer offset).IsPage entries offset size)
    (hoffset : offset ≤ Text.nat64Max) : ∃ responses, Walk answer size offset responses := by
  cases hnext : (answer offset).hasNext with
  | false => exact ⟨_, .last hnext⟩
  | true =>
    obtain ⟨k, hlow, hhigh⟩ := (hpage offset hoffset).hasNext.mp hnext
    have hbehind : offset + size ≤ Text.nat64Max := by omega
    obtain ⟨rest, hrest⟩ := exists_of_isPage hsize hlength hpage hbehind
    exact ⟨_, .next hnext hrest⟩
termination_by entries.length - offset

/-- The pages of a walk put together are the rest of the list. -/
theorem results_eq (hlength : entries.length ≤ Text.nat64Max)
    (hpage : ∀ offset ≤ Text.nat64Max, (answer offset).IsPage entries offset size)
    (hoffset : offset ≤ Text.nat64Max) (h : Walk answer size offset responses) :
    responses.flatMap Response.results = entries.drop offset := by
  induction h with
  | @last offset hlast =>
    -- Nothing follows the last page, so cutting it off after its size loses nothing.
    have hshort : entries.length ≤ offset + size := by
      refine Nat.le_of_not_lt fun hlt ↦ ?_
      have hnext := (hpage offset hoffset).hasNext.mpr ⟨offset + size, Nat.le_refl _, hlt⟩
      exact absurd (hlast.symm.trans hnext) Bool.false_ne_true
    rw [List.flatMap_singleton, (hpage offset hoffset).results,
      List.take_of_length_le (by rw [List.length_drop]; omega)]
  | @next offset rest hnext _ ih =>
    obtain ⟨k, hlow, hhigh⟩ := (hpage offset hoffset).hasNext.mp hnext
    rw [List.flatMap_cons, (hpage offset hoffset).results, ih (by omega), ← List.drop_drop,
      List.take_append_drop]

end Walk

theorem Settings.pageSize_le {settings : Settings} {requested : Option Nat} {size bound : Nat}
    (h : settings.pageSize requested = some size) (hbound : settings.maxPageSize = some bound) :
    size ≤ bound := by
  rw [pageSize, hbound, Option.map_eq_some_iff] at h
  obtain ⟨_, -, rfl⟩ := h
  exact Nat.min_le_right _ _

/-! ## The pages of a list request -/

section Pages

variable {service : Service} {s : Store} {app model : String} {m : Model} {identity : Identity}
  {headers : Headers} {pairs : List (String × String)} {visibility : Predicate} {t : Table}
  {rows : List Row} {size offset : Nat}

theorem Store.listWindow_atOffset (plan : Plan)
    (hshow : (Parameters.ofPairs pairs).show? = none)
    (hsize : s.registry.settings.pageSize (Parameters.ofPairs pairs).limit? = some size)
    (hoffset : offset ≤ Text.nat64Max) :
    s.listWindow m plan (.ofPairs (Parameters.atOffset pairs offset))
      = .ok ⟨offset, some size⟩ := by
  have hlimit : (Parameters.ofPairs (Parameters.atOffset pairs offset)).limit?
      = (Parameters.ofPairs pairs).limit? := by
    rw [Parameters.limit?, Parameters.limit?, Parameters.size?, Parameters.size?,
      Parameters.first?_atOffset pairs offset (by decide)]
  have hshow' : (Parameters.ofPairs (Parameters.atOffset pairs offset)).show? = none := by
    rw [← hshow, Parameters.show?, Parameters.show?,
      Parameters.first?_atOffset pairs offset (by decide)]
  rw [listWindow, hlimit, hsize, hshow', Parameters.offset?_atOffset pairs hoffset]
  rfl

namespace Service

theorem Selects.listing_atOffset
    (h : service.Selects s app model headers pairs m identity visibility t rows)
    (hshow : (Parameters.ofPairs pairs).show? = none)
    (hsize : s.registry.settings.pageSize (Parameters.ofPairs pairs).limit? = some size)
    (hoffset : offset ≤ Text.nat64Max) :
    service.listing s app model headers (Parameters.atOffset pairs offset)
      = m.listResponse (.ofPairs pairs) ⟨offset, some size⟩ rows := by
  have hplan : s.registry.listPlan m identity (.ofPairs (Parameters.atOffset pairs offset)) = _ :=
    (Registry.listPlan_atOffset _ _ _ _ _).trans h.plan
  rw [← m.listResponse_atOffset pairs offset]
  exact listing_of_list h.addressed h.identified (Store.list_eq_ok_iff.mpr ⟨h.reading, _, _, rows,
    hplan, Store.listWindow_atOffset _ hshow hsize hoffset, h.selected, rfl⟩)

theorem Selects.rows_perm
    (h : service.Selects s app model headers pairs m identity visibility t rows) :
    rows.Perm (t.rows.filter fun row ↦
      (s.registry.planUnder m (.ofPairs pairs) visibility).steps.all (s.keeps m row)) := by
  have hrows := h.selected
  rw [Store.selected_eq h.registered h.table] at hrows
  exact Except.ok.inj hrows ▸ Row.sorted_perm _ _

/-- Paging loses and repeats nothing. Let a list request succeed that asks for pages of at least one
row, and not for the page of a certain row, on a table whose rows are counted in 64 bits. At every
offset it is answered with the page that begins there of the list of all rows that its plan selects.
A client that begins at the first row and goes on from page to page as long as rows follow comes to
an end, and has been shown this list then. -/
theorem pages_cover_list (service : Service) (s : Store) (app model : String)
    (headers : Headers) (pairs : List (String × String)) (size : Nat)
    (h : (service.listing s app model headers pairs).status = 200)
    (hshow : (Parameters.ofPairs pairs).show? = none)
    (hsize : s.registry.settings.pageSize (Parameters.ofPairs pairs).limit? = some size)
    (hpositive : 1 ≤ size)
    (htable : ∀ t, s.table? ⟨app, model⟩ = some t → t.rows.length ≤ Text.nat64Max) :
    let p : Parameters := .ofPairs pairs
    let page := fun offset ↦ service.listing s app model headers (Parameters.atOffset pairs offset)
    ∃ (m : Model) (identity : Identity) (plan : Plan) (t : Table) (rows : List Row),
      s.registry.get? ⟨app, model⟩ = some m ∧
      service.identification.identify headers = .ok identity ∧
      s.registry.listPlan m identity p = .ok plan ∧ s.table? m.key = some t ∧
      s.select m.key plan {} = .ok ⟨rows, rows.length⟩ ∧
      rows.Perm (t.rows.filter fun row ↦ plan.steps.all (s.keeps m row)) ∧
      let entries := (m.listResponse p {} rows).results
      (∀ offset ≤ Text.nat64Max, (page offset).IsPage entries offset size ∧
        (page offset).results.length ≤ size ∧
        ∀ bound, s.registry.settings.maxPageSize = some bound →
          (page offset).results.length ≤ bound) ∧
      ∃ responses, Walk page size 0 responses ∧
        (∀ others, Walk page size 0 others → others = responses) ∧
        (∀ i < responses.length, responses[i]? = some (page (i * size))) ∧
        responses.flatMap Response.results = entries := by
  intro p page
  obtain ⟨m, identity, visibility, t, rows, window, hselects, -⟩ := exists_selects h
  have hlength : rows.length ≤ Text.nat64Max := by
    have hkey := ((s.registry.get?_eq_some_iff _ m).mp hselects.addressed).2
    rw [hselects.rows_perm.length_eq]
    exact Nat.le_trans (List.length_filter_le _ _) (htable t (hkey ▸ hselects.table))
  have hentries : (m.listResponse p {} rows).results.length ≤ Text.nat64Max := by
    rwa [Model.results_listResponse, Window.slice_default, List.length_map]
  refine ⟨m, identity, _, t, rows, hselects.addressed, hselects.identified, hselects.plan,
    hselects.table, Store.select_of_selected hselects.selected, hselects.rows_perm, ?_⟩
  intro entries
  have hpage : ∀ offset ≤ Text.nat64Max, (page offset).IsPage entries offset size := by
    intro offset hoffset
    have hresponse : page offset = m.listResponse p ⟨offset, some size⟩ rows :=
      hselects.listing_atOffset hshow hsize hoffset
    rw [hresponse]
    exact m.isPage_listResponse p offset size hlength
  constructor
  · intro offset hoffset
    have hshort : (page offset).results.length ≤ size := by
      rw [(hpage offset hoffset).results]
      exact List.length_take_le _ _
    exact ⟨hpage offset hoffset, hshort, fun bound hbound ↦
      Nat.le_trans hshort (Settings.pageSize_le hsize hbound)⟩
  · obtain ⟨responses, hwalk⟩ := Walk.exists_of_isPage hpositive hentries hpage (Nat.zero_le _)
    refine ⟨responses, hwalk, fun others ↦ hwalk.unique, fun i hi ↦ ?_,
      hwalk.results_eq hentries hpage (Nat.zero_le _)⟩
    rw [hwalk.getElem?_eq hi, Nat.zero_add]

end Service

end Pages

namespace Folders

/-- A client that pages through the three folders by two has been shown all of them. -/
theorem pages_of_folders :
    let pairs := [("limit", "2")]
    let page := fun offset ↦
      Service.listing {} store "core" "folder" [] (Parameters.atOffset pairs offset)
    ∃ plan rows responses, store.select folder.key plan {} = .ok ⟨rows, rows.length⟩ ∧
      Walk page 2 0 responses ∧
      responses.flatMap Response.results
        = (folder.listResponse (.ofPairs pairs) {} rows).results := by
  intro pairs page
  obtain ⟨m, identity, plan, t, rows, hm, -, -, -, hselect, -, -, responses, hwalk, -, -, hall⟩ :=
    Service.pages_cover_list {} store "core" "folder" [] pairs 2 (by decide +kernel)
      (by decide +kernel) (by decide +kernel) (by decide) fun t ht ↦ by
        obtain rfl : ⟨_, _⟩ = t := Option.some.inj ht
        decide
  obtain rfl : folder = m := Option.some.inj (get?_folder.symm.trans hm)
  exact ⟨plan, rows, responses, hselect, hwalk, hall⟩

end Folders

end RowAccess

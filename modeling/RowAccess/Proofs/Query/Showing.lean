import Mathlib.Data.List.Nodup
import RowAccess.Proofs.Query.Paging
import RowAccess.Proofs.Store.Calls

/-!
# The page of a row

A request can ask for the page that shows a certain row. Where this page begins is worked out on a
list of ids, and the page itself is cut out of a list of rows. Both lists come from the rows that
the plan of the request selects, in order, but a row without an id would be missing from the first
one and shift all ids behind it. In a store that has every row under the id read from it none is
missing (`Store.Identified.map_some_ids`), and no id is there twice, so the page that is cut out
holds the row.
-/

namespace RowAccess

/-! ## The beginning of a page -/

section PageStart

variable {ids : List Int} {target : Option Int} {id : Int} {position size : Nat}

theorem dvd_pageStart (hsize : 1 ≤ size) : size ∣ pageStart ids target size := by
  rw [pageStart, Nat.max_eq_left hsize]
  exact Nat.dvd_mul_left _ _

/-- The page of a listed id begins at the last multiple of the page size up to its position. -/
theorem pageStart_of_getElem? (hids : ids.Nodup) (hposition : ids[position]? = some id)
    (hsize : 1 ≤ size) : pageStart ids (some id) size = position / size * size := by
  have hfound : ids.idxOf? id = some position := by
    obtain ⟨hlt, hid⟩ := List.getElem?_eq_some_iff.mp hposition
    refine List.idxOf?_eq_some_iff.mpr ⟨hlt, hid, fun i hi hearlier ↦ ?_⟩
    exact Nat.ne_of_lt hi ((hids.getElem_inj_iff).mp (hearlier.trans hid.symm))
  rw [pageStart, Nat.max_eq_left hsize, Option.bind_some, hfound, Option.getD_some]

theorem pageStart_of_not_mem (h : ∀ id, target = some id → id ∉ ids) (size : Nat) :
    pageStart ids target size = 0 := by
  have hnone : (target.bind fun id ↦ ids.idxOf? id) = none := by
    cases htarget : target with
    | none => rfl
    | some id => exact List.idxOf?_eq_none_iff.mpr (h id htarget)
  rw [pageStart, hnone, Option.getD_none, Nat.zero_div, Nat.zero_mul]

theorem pageStart_le (ids : List Int) (target : Option Int) (size : Nat) :
    pageStart ids target size ≤ ids.length := by
  rw [pageStart]
  refine Nat.le_trans (Nat.div_mul_le_self _ _) ?_
  cases hfound : target.bind fun id ↦ ids.idxOf? id with
  | none => exact Nat.zero_le _
  | some position =>
    obtain ⟨id, -, hid⟩ := Option.bind_eq_some_iff.mp hfound
    exact Nat.le_of_lt (List.idxOf?_eq_some_iff.mp hid).1

theorem Window.getElem?_slice {α : Type} (w : Window) (items : List α) (hlow : w.offset ≤ position)
    (hhigh : ∀ limit, w.limit = some limit → position < w.offset + limit) :
    (w.slice items)[position - w.offset]? = items[position]? := by
  rw [slice]
  cases hlimit : w.limit with
  | none => rw [List.getElem?_drop, Nat.add_sub_cancel' hlow]
  | some limit =>
    have hwithin : position - w.offset < limit := by
      have hlt := hhigh limit hlimit
      omega
    rw [List.getElem?_take_of_lt hwithin, List.getElem?_drop, Nat.add_sub_cancel' hlow]

end PageStart

/-! ## The ids of the selected rows -/

/-- Where every row has an id, no id is left out when the ids are collected. -/
theorem Row.map_some_ids {rows : List Row} (h : ∀ row ∈ rows, ∃ id, row.id? = some id) :
    (rows.filterMap Row.id?).map some = rows.map Row.id? := by
  induction rows with
  | nil => rfl
  | cons row rows ih =>
    rw [List.forall_mem_cons] at h
    obtain ⟨⟨id, hid⟩, hrows⟩ := h
    rw [List.filterMap_cons_some hid, List.map_cons, List.map_cons, ih hrows, hid]

section Selected

variable {service : Service} {s : Store} {app model : String} {m : Model} {identity : Identity}
  {headers : Headers} {pairs : List (String × String)} {visibility : Predicate} {t : Table}
  {rows : List Row} {target : String}

theorem Service.Selects.map_some_ids
    (h : service.Selects s app model headers pairs m identity visibility t rows)
    (hs : s.Identified) : (rows.filterMap Row.id?).map some = rows.map Row.id? :=
  Row.map_some_ids fun _ hrow ↦ hs.exists_id? h.table (h.mem_rows.mp hrow).1

theorem Service.Selects.nodup_ids
    (h : service.Selects s app model headers pairs m identity visibility t rows)
    (hs : s.Identified) : (rows.filterMap Row.id?).Nodup := by
  have hrows : (rows.map Row.id?).Nodup :=
    (h.rows_perm.map Row.id?).nodup_iff.mpr
      ((hs.nodup_ids h.table).sublist (List.filter_sublist.map Row.id?))
  rw [← h.map_some_ids hs] at hrows
  exact hrows.of_map some

theorem Service.Selects.getElem?_ids
    (h : service.Selects s app model headers pairs m identity visibility t rows)
    (hs : s.Identified) {position : Nat} {row : Row} {id : Int}
    (hposition : rows[position]? = some row) (hid : row.id? = some id) :
    (rows.filterMap Row.id?)[position]? = some id := by
  have hentry : (rows.map Row.id?)[position]? = some (some id) := by
    rw [List.getElem?_map, hposition, Option.map_some, hid]
  rw [← h.map_some_ids hs, List.getElem?_map] at hentry
  obtain ⟨other, hother, hsome⟩ := Option.map_eq_some_iff.mp hentry
  exact Option.some.inj hsome ▸ hother

theorem Store.listWindow_of_show {plan : Plan} {p : Parameters} (hshow : p.show? = some target)
    (hrows : s.selected m.key plan = .ok rows) :
    s.listWindow m plan p = .ok ⟨(s.registry.settings.pageSize p.limit?).elim 0
      (pageStart (rows.filterMap Row.id?) (Text.readInt64? target)),
      s.registry.settings.pageSize p.limit?⟩ := by
  rw [listWindow, hshow]
  cases s.registry.settings.pageSize p.limit? with
  | none => rfl
  | some size =>
    rw [orderedIds, hrows]
    rfl

theorem Service.Selects.listing_of_show
    (h : service.Selects s app model headers pairs m identity visibility t rows)
    (hshow : (Parameters.ofPairs pairs).show? = some target) :
    service.listing s app model headers pairs = m.listResponse (.ofPairs pairs)
      ⟨(s.registry.settings.pageSize (Parameters.ofPairs pairs).limit?).elim 0
        (pageStart (rows.filterMap Row.id?) (Text.readInt64? target)),
      s.registry.settings.pageSize (Parameters.ofPairs pairs).limit?⟩ rows :=
  listing_of_list h.addressed h.identified (Store.list_eq_ok_iff.mpr ⟨h.reading, _, _, rows,
    h.plan, Store.listWindow_of_show hshow h.selected, h.selected, rfl⟩)

end Selected

namespace Service

/-- A request for the page of a row lands on it. In a store that has every row under the id read
from it, let a list request succeed that names a row to show and asks for no pages or for pages of
at least one row. It is answered with a window of the rows that its plan selects, in order, which
begins at a multiple of the page size, or at the first row if there are no pages. If the row with
the named id is selected, then it is shown, at its distance from the reported offset, and the offset
is the last multiple of the page size up to its position; so no number on the way is greater than
the position. If the named row is not selected, or is not named by an integer, then the offset is
zero. -/
theorem show_lands_on_page (service : Service) (s : Store) (app model : String) (headers : Headers)
    (pairs : List (String × String)) (target : String) (hs : s.Identified)
    (h : (service.listing s app model headers pairs).status = 200)
    (hshow : (Parameters.ofPairs pairs).show? = some target)
    (hpositive : s.registry.settings.pageSize (Parameters.ofPairs pairs).limit? ≠ some 0) :
    let p : Parameters := .ofPairs pairs
    let response := service.listing s app model headers pairs
    let pageSize := s.registry.settings.pageSize p.limit?
    ∃ m identity visibility t rows offset,
      service.Selects s app model headers pairs m identity visibility t rows ∧
      response = m.listResponse p ⟨offset, pageSize⟩ rows ∧
      response.place? "offset" = some (.nat offset) ∧
      (pageSize = none → offset = 0) ∧ (∀ size, pageSize = some size → size ∣ offset) ∧
      (∀ id row, Text.readInt64? target = some id → s.get m.key id = .ok (some row) → row ∈ rows →
        ∃ position, rows[position]? = some row ∧ offset ≤ position ∧
          (∀ size, pageSize = some size →
            offset = position / size * size ∧ position < offset + size) ∧
          response.results[position - offset]? = some (row.project (m.fieldsToShow p)).toJson) ∧
      ((∀ id row, Text.readInt64? target = some id → s.get m.key id = .ok (some row) → row ∉ rows) →
        offset = 0) ∧
      offset ≤ rows.length := by
  intro p response pageSize
  obtain ⟨m, identity, visibility, t, rows, window, hselects, -⟩ := exists_selects h
  let ids := rows.filterMap Row.id?
  let offset := pageSize.elim 0 (pageStart ids (Text.readInt64? target))
  have hresponse : response = m.listResponse p ⟨offset, pageSize⟩ rows :=
    hselects.listing_of_show hshow
  have hoffset : ∀ size, pageSize = some size →
      1 ≤ size ∧ offset = pageStart ids (Text.readInt64? target) size := by
    intro size hsize
    refine ⟨Nat.one_le_iff_ne_zero.mpr fun hzero ↦ hpositive (hzero ▸ hsize), ?_⟩
    simp only [offset, hsize, Option.elim_some]
  have hwhole : pageSize = none → offset = 0 := by
    intro hnone
    simp only [offset, hnone, Option.elim_none]
  refine ⟨m, identity, visibility, t, rows, offset, hselects, hresponse, hresponse ▸ rfl, hwhole,
    fun size hsize ↦ ?_, fun id row hid hget hrow ↦ ?_, fun hnot ↦ ?_, ?_⟩
  · obtain ⟨hsize, hstart⟩ := hoffset size hsize
    exact hstart ▸ dvd_pageStart hsize
  · obtain ⟨position, hposition⟩ := List.mem_iff_getElem?.mp hrow
    have hlisted := hselects.getElem?_ids hs hposition (hs _ id row hget)
    have hpage : ∀ size, pageSize = some size →
        offset = position / size * size ∧ position < offset + size := by
      intro size hsize
      obtain ⟨hone, hstart⟩ := hoffset size hsize
      rw [hid, pageStart_of_getElem? (hselects.nodup_ids hs) hlisted hone] at hstart
      exact ⟨hstart, hstart ▸ Nat.lt_div_mul_add hone⟩
    have hlow : offset ≤ position := by
      cases hsize : pageSize with
      | none => exact hwhole hsize ▸ Nat.zero_le _
      | some size => exact (hpage size hsize).1 ▸ Nat.div_mul_le_self position size
    refine ⟨position, hposition, hlow, hpage, ?_⟩
    rw [hresponse, Model.results_listResponse, List.getElem?_map]
    have hshown : (Window.slice ⟨offset, pageSize⟩ rows)[position - offset]? = rows[position]? :=
      Window.getElem?_slice ⟨offset, pageSize⟩ rows hlow fun size hsize ↦ (hpage size hsize).2
    rw [hshown, hposition, Option.map_some]
  · cases hsize : pageSize with
    | none => exact hwhole hsize
    | some size =>
      rw [(hoffset size hsize).2]
      refine pageStart_of_not_mem (fun id hid hmem ↦ ?_) size
      obtain ⟨row, hrow, hrowId⟩ := List.mem_filterMap.mp hmem
      have hstored := (hs.get?_eq_some_iff hselects.table).mpr
        ⟨(hselects.mem_rows.mp hrow).1, hrowId⟩
      exact hnot id row hid (Store.get_eq_ok_iff.mpr ⟨t, hselects.table, hstored⟩) hrow
  · cases hsize : pageSize with
    | none => exact hwhole hsize ▸ Nat.zero_le _
    | some size =>
      rw [(hoffset size hsize).2]
      exact Nat.le_trans (pageStart_le _ _ _) (List.length_filterMap_le _ _)

end Service

namespace Folders

theorem identified_store : store.Identified := by
  intro key id row hget
  obtain ⟨t, ht, hrow⟩ := Store.get_eq_ok_iff.mp hget
  have hmem : (key, t) ∈ store.tables := (lookup_eq_some_iff_mem (by decide)).mp ht
  obtain ⟨rfl, rfl⟩ := Prod.mk.inj (List.mem_singleton.mp hmem)
  have hids : ∀ entry ∈ ([(2, .ofList [("id", .int 2)]), (3, .ofList [("id", .int 3)]), (4, torn)]
      : List (Int × Row)), entry.2.id? = some entry.1 := by decide +kernel
  exact hids (id, row) (Table.get?_eq_some_iff.mp hrow)

/-- By pages of two, the folder `4` is on the page of the third folder, alone. -/
theorem torn_folder_shown :
    let pairs := [("_show", "4"), ("limit", "2")]
    ∃ offset position,
      (Service.listing {} store "core" "folder" [] pairs).place? "offset" = some (.nat offset) ∧
      2 ∣ offset ∧ offset ≤ position ∧ position < offset + 2 ∧
      (Service.listing {} store "core" "folder" [] pairs).results[position - offset]?
        = some (torn.project (folder.fieldsToShow (.ofPairs pairs))).toJson := by
  intro pairs
  obtain ⟨m, identity, visibility, t, rows, offset, hselects, -, hoffset, -, hdvd, hshown, -⟩ :=
    Service.show_lands_on_page {} store "core" "folder" [] pairs "4" identified_store
      (by decide +kernel) (by decide +kernel) (by decide +kernel)
  obtain rfl : folder = m := Option.some.inj (get?_folder.symm.trans hselects.addressed)
  obtain rfl : .always = visibility := Except.ok.inj hselects.visible
  have hrow : torn ∈ rows :=
    hselects.mem_rows.mpr ⟨torn_mem hselects.table, by decide +kernel⟩
  obtain ⟨position, -, hlow, hpage, hresult⟩ := hshown 4 torn (by decide +kernel) rfl hrow
  exact ⟨offset, position, hoffset, hdvd 2 rfl, hlow, (hpage 2 rfl).2, hresult⟩

end Folders

end RowAccess

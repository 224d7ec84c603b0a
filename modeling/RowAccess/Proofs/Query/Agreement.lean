import RowAccess.Proofs.Evaluation.Related
import RowAccess.Proofs.Query.Compilation
import RowAccess.Proofs.Query.Detail
import RowAccess.Proofs.Query.Parameters
import RowAccess.Proofs.Visibility.Narrowing

/-!
# Lists and details agree

A list request and a detail request with the same headers and the same query run different plans
under one visibility. The plan of the list keeps visible rows only, so each of its rows is found by
a detail request for its id, and shown there as it is in the list. A query without filters and
exclusions keeps every visible row, so that a detail request then finds exactly the listed rows.
-/

namespace RowAccess

theorem Plan.keeps_combine_empty {s : Store} {m : Model} {row : Row} {visibility : Predicate} :
    (combine visibility {} {}).steps.all (s.keeps m row) = s.holds m row visibility := by
  have hsteps : (combine visibility {} {}).steps = [.include (.mkAll [visibility, .always])] := rfl
  rw [hsteps, List.all_cons, List.all_nil, Bool.and_true, Store.keeps]
  refine s.holds_congr ?_ fun choices ↦ ?_
  · rw [Predicate.positive_mkAll, List.flatMap_cons, List.flatMap_singleton,
      Predicate.positive_always, List.append_nil]
  · rw [Store.satisfies_mkAll, List.all_cons, List.all_cons, List.all_nil, Bool.and_true,
      Store.satisfies_always, Bool.and_true]

namespace Store

variable {s : Store} {m : Model} {t : Table} {visibility : Predicate} {row : Row} {i : Int}
  {id : String}

theorem get?_of_id? (hids : s.KeepsIds) (ht : s.table? m.key = some t) (hrow : row ∈ t.rows)
    (hid : row.id? = some i) : t.get? i = some row := by
  obtain ⟨⟨n, _⟩, hentry, rfl⟩ := List.mem_map.mp hrow
  have hget := Table.get?_eq_some_iff.mpr hentry
  have hstored := hids m.key n _ (get_eq_ok_iff.mpr ⟨t, ht, hget⟩)
  rw [Row.id?, hstored, Option.bind_some, Json.asInt64?_eq_some_iff] at hid
  obtain rfl := Number.int.inj (Json.number.inj hid.2)
  exact hget

theorem addressed?_eq_some_iff (hids : s.KeepsIds) (ht : s.table? m.key = some t) :
    s.addressed? m t visibility id = some row ↔
      row ∈ t.rows ∧ s.holds m row visibility = true ∧
        ∃ i, row.id? = some i ∧ Text.readInt64? id = some i := by
  rw [addressed?, Option.filter_eq_some_iff, Option.bind_eq_some_iff]
  constructor
  · rintro ⟨⟨i, hid, hget⟩, hvisible⟩
    have hstored := hids m.key i row (get_eq_ok_iff.mpr ⟨t, ht, hget⟩)
    refine ⟨List.mem_map.mpr ⟨_, Table.get?_eq_some_iff.mp hget, rfl⟩, hvisible, i, ?_, hid⟩
    rw [Row.id?, hstored, Option.bind_some, Json.asInt64?_eq_some_iff]
    exact ⟨Text.isInt64_of_readInt64? hid, rfl⟩
  · rintro ⟨hrow, hvisible, i, hid, hread⟩
    exact ⟨⟨i, hread, get?_of_id? hids ht hrow hid⟩, hvisible⟩

end Store

namespace Service

section Agreement

variable {service : Service} {s : Store} {app model : String} {headers : Headers}
  {pairs : List (String × String)} {m : Model} {identity : Identity} {visibility : Predicate}
  {t : Table} {rows : List Row}

/-- A row that a list request selects is shown by a detail request for its id. -/
theorem Selects.detailing_eq
    (h : service.Selects s app model headers pairs m identity visibility t rows)
    (hids : s.KeepsIds) {row : Row} {i : Int} {id : String} (hrow : row ∈ rows)
    (hid : row.id? = some i) (hread : Text.readInt64? id = some i) :
    service.detailing s app model id headers pairs = m.detailResponse (.ofPairs pairs) row := by
  obtain ⟨hstored, hkept⟩ := h.mem_rows.mp hrow
  have hvisible : s.holds m row visibility = true :=
    Plan.holds_of_keeps_combine (Registry.strict_of_visibleRows h.visible) hkept
  have haddressed : s.addressed? m t visibility id = some row :=
    (Store.addressed?_eq_some_iff hids h.table).mpr ⟨hstored, hvisible, i, hid, hread⟩
  rw [Service.detailing_eq h.addressed h.table hids h.identified h.reading h.visible, haddressed]

end Agreement

end Service

namespace Notes

end Notes

end RowAccess

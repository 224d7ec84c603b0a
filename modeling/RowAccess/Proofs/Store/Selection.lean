import RowAccess.Store.Selection

/-!
# What a plan selects

Ordering rows neither adds nor drops one, so a plan selects exactly those rows of a table that
every one of its steps keeps. A plan can be run on every registered model.
-/

namespace RowAccess

theorem Row.sorted_perm (keys : List SortKey) (rows : List Row) :
    (Row.sorted keys rows).Perm rows :=
  List.mergeSort_perm rows _

theorem Row.mem_sorted {keys : List SortKey} {rows : List Row} {row : Row} :
    row ∈ Row.sorted keys rows ↔ row ∈ rows :=
  (Row.sorted_perm keys rows).mem_iff

theorem Window.slice_default {α : Type} (items : List α) : ({} : Window).slice items = items :=
  List.drop_zero

namespace Store

variable {s : Store} {m : Model} {key : ModelKey}

theorem exists_table (hm : s.registry.get? key = some m) : ∃ t, s.table? key = some t := by
  have hsome := s.isSome_table? key
  rw [Registry.contains, hm, Option.isSome_some] at hsome
  exact Option.isSome_iff_exists.mp hsome

theorem selected_eq {t : Table} (hm : s.registry.get? key = some m) (ht : s.table? key = some t)
    (plan : Plan) :
    s.selected key plan = .ok (Row.sorted plan.sort
      (t.rows.filter fun row ↦ plan.steps.all (s.keeps m row))) := by
  rw [selected, hm, ht]

theorem select_of_selected {plan : Plan} {rows : List Row} (h : s.selected key plan = .ok rows) :
    s.select key plan {} = .ok ⟨rows, rows.length⟩ := by
  rw [select, h, ← Window.slice_default rows]
  rfl

theorem mem_of_selected {t : Table} (hm : s.registry.get? key = some m)
    (ht : s.table? key = some t) {plan : Plan} {rows : List Row}
    (h : s.selected key plan = .ok rows) {row : Row} :
    row ∈ rows ↔ row ∈ t.rows ∧ plan.steps.all (s.keeps m row) = true := by
  rw [selected_eq hm ht] at h
  rw [← Except.ok.inj h, Row.mem_sorted, List.mem_filter]

theorem all_keeps_matching (p : Predicate) (row : Row) :
    (Plan.matching p).steps.all (s.keeps m row) = s.holds m row p := by
  rw [Plan.matching, List.all_cons, List.all_nil, Bool.and_true, keeps]

theorem select_matching {t : Table} (hm : s.registry.get? key = some m)
    (ht : s.table? key = some t) (p : Predicate) :
    ∃ page, s.select key (.matching p) {} = .ok page ∧
      page.rows.Perm (t.rows.filter fun row ↦ s.holds m row p) ∧
      page.count = page.rows.length := by
  have hselected := selected_eq hm ht (.matching p)
  simp only [all_keeps_matching] at hselected
  refine ⟨_, by rw [select, hselected]; rfl, ?_, ?_⟩
  · rw [Window.slice_default]
    exact Row.sorted_perm _ _
  · rw [Window.slice_default]

end Store

end RowAccess

import RowAccess.Proofs.Evaluation.Conjunction
import RowAccess.Proofs.Query.Listing
import RowAccess.Proofs.Visibility.TierTable

/-!
# Filters narrow what is visible

The visibility of a request and its filters meet in one conjunction, where they share the related
rows that are chosen for joined relations. So a filter may change how the visibility is evaluated.
It can only hide rows by it: every row of a list is visible by itself, whatever the filters are. If
the visibility speaks of no many-to-many relation, then nothing is shared, and the list is what the
filters select from the visible rows.
-/

namespace RowAccess

namespace Plan

variable {s : Store} {m : Model} {row : Row} {visibility : Predicate}

theorem holds_of_keeps_combine {filter exclude : PredicateList}
    (hstrict : ∀ c ∈ visibility.positive, c.holdsOf .null = false)
    (h : (combine visibility filter exclude).steps.all (s.keeps m row) = true) :
    s.holds m row visibility = true := by
  rw [combine, List.cons_append, List.all_cons, Bool.and_eq_true] at h
  exact s.holds_of_holds_mkAll List.mem_cons_self hstrict h.1

/-- A visibility that speaks of no many-to-many relation and the filters are independent. -/
theorem keeps_combine_of_unjoined (h : visibility.Unjoined m) (filter exclude : PredicateList) :
    (combine visibility filter exclude).steps.all (s.keeps m row)
      = (s.holds m row visibility
        && (combine .always filter exclude).steps.all (s.keeps m row)) := by
  rw [combine, combine, List.cons_append, List.cons_append, List.all_cons, List.all_cons,
    Store.keeps, Store.keeps, s.holds_mkAll_cons h, Predicate.mkAll_always_cons, Bool.and_assoc]

end Plan

/-- Every row that a successful list request selects is visible by itself, and where the visibility
speaks of no many-to-many relation, the selected rows are the visible ones among those that the
filters alone select. The rows of a private model are listed for a permission only. -/
theorem Service.list_selects_visible (service : Service) (now : Instant) (s : Store)
    (request : Request) (app model : String)
    (h : (responseOf (service.perform now s request .list [app, model])).status = 200) :
    let p : Parameters := .ofPairs request.pairs
    ∃ m identity visibility window rows,
      s.registry.get? ⟨app, model⟩ = some m ∧
      service.identification.identify request.headers = .ok identity ∧
      (m.isPrivate = true → identity.hasPermission app "view" model = true) ∧
      s.registry.visibleRows m identity p = .ok visibility ∧
      s.selected m.key (s.registry.planUnder m p visibility) = .ok rows ∧
      responseOf (service.perform now s request .list [app, model])
        = m.listResponse p window rows ∧
      (∀ row ∈ rows, s.holds m row visibility = true) ∧
      ((∀ c ∈ visibility.conditions, m.isManyToMany c.root = false) →
        ∃ asked, s.selected m.key (s.registry.planUnder m p .always) = .ok asked ∧
          rows.Perm (asked.filter fun row ↦ s.holds m row visibility)) := by
  intro p
  obtain ⟨m, identity, visibility, t, rows, hlists⟩ := exists_lists h
  obtain ⟨window, hshown⟩ := hlists.shown
  refine ⟨m, identity, visibility, window, rows, hlists.addressed, hlists.identified, ?_,
    hlists.visible, hlists.selected, hshown, fun row hrow ↦ ?_, fun hunjoined ↦ ?_⟩
  · have hpermission := Model.requireReading_eq_ok_iff.mp hlists.reading
    rwa [hlists.key] at hpermission
  · exact Plan.holds_of_keeps_combine (Registry.strict_of_visibleRows hlists.visible)
      (hlists.mem_rows.mp hrow).2
  · have hfree : visibility.Unjoined m := fun c hc ↦
      hunjoined c (visibility.positive_subset_conditions hc)
    have hfilter : t.rows.filter
          (fun row ↦ (s.registry.planUnder m p visibility).steps.all (s.keeps m row))
        = (t.rows.filter
          (fun row ↦ (s.registry.planUnder m p .always).steps.all (s.keeps m row))).filter
            fun row ↦ s.holds m row visibility := by
      rw [List.filter_filter]
      exact List.filter_congr fun row _ ↦ Plan.keeps_combine_of_unjoined hfree _ _
    refine ⟨_, Store.selected_eq hlists.registered hlists.table _, ?_⟩
    have hrows := hlists.selected
    rw [Store.selected_eq hlists.registered hlists.table] at hrows
    rw [← Except.ok.inj hrows, hfilter]
    exact (Row.sorted_perm _ _).trans ((Row.sorted_perm _ _).filter _).symm

/-- A request of the user `7` for the notes, with the first project selected. -/
def Notes.listing : Request where
  method := "GET"
  target := "/core/note?project__id=1"
  headers := [("x-user-id", "7")]

/-- What the user `7` is shown of the notes is visible to them. -/
theorem Notes.listing_selects_visible :
    ∃ identity visibility window rows,
      Identification.headers.identify Notes.listing.headers = .ok identity ∧
      Notes.registry.visibleRows Notes.note identity (.ofPairs Notes.listing.pairs)
        = .ok visibility ∧
      Service.responseOf
          (Service.perform {} ⟨0, 0⟩ Notes.store Notes.listing .list ["core", "note"])
        = Notes.note.listResponse (.ofPairs Notes.listing.pairs) window rows ∧
      ∀ row ∈ rows, Notes.store.holds Notes.note row visibility = true := by
  obtain ⟨m, identity, visibility, window, rows, hm, hidentity, -, hvisible, -, hshown, hall, -⟩ :=
    Service.list_selects_visible {} ⟨0, 0⟩ Notes.store Notes.listing "core" "note"
      (by decide +kernel)
  have hnote : Notes.store.registry.get? ⟨"core", "note"⟩ = some Notes.note :=
    (Notes.registry.get?_eq_some_iff _ _).mpr ⟨by simp [Notes.registry], rfl⟩
  obtain rfl : Notes.note = m := Option.some.inj (hnote.symm.trans hm)
  exact ⟨identity, visibility, window, rows, hidentity, hvisible, hshown, hall⟩

end RowAccess

import RowAccess.Proofs.Evaluation.Joining
import RowAccess.Proofs.Query.Compilation
import RowAccess.Proofs.Query.Listing
import RowAccess.Proofs.Query.Parameters
import RowAccess.Proofs.Visibility.TierTable

/-!
# Filters behind a relation

A filter key that goes on behind a relation asks the related rows what the rest of the key asks. The
rest has a kind on the related model, and the whole key has the same (`filterKind?_joinPath`); the
value is compiled to the same comparison, at the longer path (`compileValue_of_path`); and what the
longer path reaches is what the rest reaches from the related rows that are stored. So the rows that
such a filter selects are those that refer to a row which the shorter filter selects from the
related model (`Store.selectedBy_relation`), and a key of several relations is taken apart one
relation after the other.
-/

namespace RowAccess

/-! ## The joined key -/

section Key

variable {relation : String}

theorem Parameters.isReserved_joinPath (hne : relation ≠ "")
    (hhead : relation.toList.head? ≠ some '_') (key : String) :
    isReserved (joinPath [relation, key]) = false := by
  have htext := toList_joinPath_pair relation key
  -- The two reserved names hold no underscore.
  have hplain : ∀ name : String, '_' ∉ name.toList → joinPath [relation, key] ≠ name := by
    intro name hname e
    rw [e] at htext
    exact hname (htext ▸ List.mem_append_right _ List.mem_cons_self)
  have hfirst : (joinPath [relation, key]).toList.head? ≠ some '_' := by
    obtain ⟨c, cs, hcs⟩ := List.exists_cons_of_ne_nil (mt String.toList_eq_nil_iff.mp hne)
    rw [htext, hcs, List.cons_append, List.head?_cons, ← List.head?_cons, ← hcs]
    exact hhead
  simp [isReserved, hplain "offset" (by decide), hplain "limit" (by decide), hfirst]

/-- A key behind a relation has the kind that it has on the related model. -/
theorem Registry.filterKind?_joinPath {r : Registry} {m other : Model} {spec : FieldSpec}
    (hsegment : IsSegment relation) (hlast : relation.toList.getLast? ≠ some '_')
    (hfield : m.field? relation = some spec) (hrelation : spec.kind.isRelation = true)
    (htarget : spec.target = some other.key) (hother : r.get? other.key = some other)
    (hidentity : r.isIdentity other.key = false) {key : String} {kind : FieldKind}
    (hkind : r.filterKind? other key = some kind) :
    r.filterKind? m (joinPath [relation, key]) = some kind := by
  have hsegments := pathSegments_joinPath hsegment hlast key
  obtain ⟨rest, hrest⟩ := pathSegments_eq_cons key
  have hroot : pathRoot (joinPath [relation, key]) = relation := by
    rw [pathRoot, hsegments, List.headD_cons]
  obtain ⟨next, hnext, hkind⟩ := Option.bind_eq_some_iff.mp hkind
  have hsearch : r.searchable? other.key (pathRoot key) = some next := by
    rw [searchable?, hidentity, if_neg Bool.false_ne_true, hother, Option.bind_some, hnext]
  have halong : r.kindAlong? m (relation :: pathRoot key :: rest) =
      if next.kind.isRelation then r.kindAlong? other (pathRoot key :: rest)
      else some next.kind := by
    simp only [kindAlong?, hfield, htarget, hsearch, hother, Option.bind_eq_bind, Option.bind_some]
  have hjoined : r.filterKind? m (joinPath [relation, key])
      = r.kindAlong? m (relation :: pathRoot key :: rest) := by
    simp only [filterKind?, hroot, hfield, hrelation, if_true, Option.bind_eq_bind,
      Option.bind_some, relatedKind?, hsegments, hrest]
  rw [hjoined, halong]
  by_cases hnested : next.kind.isRelation = true
  · rw [if_pos hnested] at hkind ⊢
    rwa [relatedKind?, hrest] at hkind
  · rw [if_neg hnested] at hkind ⊢
    split at hkind
    · exact hkind
    · cases hkind

/-- A value asks the same of every path. -/
theorem compileValue_of_path {kind : Option FieldKind} {path value : String} {c : Condition}
    (h : compileValue kind path value = some (.leaf c)) {other : String} (hother : other ≠ "") :
    compileValue kind other value = some (.leaf { c with path := other }) := by
  unfold compileValue at h ⊢
  split at h
  · exact nomatch h
  · rename_i hne
    rw [Bool.or_eq_true, not_or] at hne
    rw [if_neg (by simpa [hne.2] using hother)]
    -- Every kind compares what stands at the path in a way that the value alone decides.
    split at h <;> (try split at h) <;> (try split at h) <;> cases h <;>
      simp_all [Predicate.eq, Predicate.compare]

end Key

/-! ## A single filter -/

theorem Parameters.filters_singleton {key : String} (hkey : isReserved key = false)
    (value : String) : (ofPairs [(key, value)]).filters = [(key, [value])] := by
  have hfilter : [(key, [value])].filter (fun entry ↦ !isReserved entry.1) = [(key, [value])] :=
    List.filter_cons_of_pos (by simp [hkey])
  exact hfilter

/-- The plan of a single filter, all rows being visible, keeps the rows that meet its condition. -/
theorem Registry.steps_planUnder_singleton {r : Registry} {m : Model} {key value : String}
    {kind : FieldKind} {c : Condition} (hkey : Parameters.isReserved key = false)
    (hkind : r.filterKind? m key = some kind) (hcomma : alternativeMark ∉ value.toList)
    (hmark : value.toList.head? ≠ some negationMark)
    (hc : compileValue (some kind) key value = some (.leaf c)) :
    (r.planUnder m (.ofPairs [(key, value)]) .always).steps = [.include (.leaf c)] := by
  have hparts : ∀ mode, (Parameters.ofPairs [(key, value)]).parts r m mode
      = (contribution mode (some kind) key value).parts false := fun mode ↦ by
    rw [Parameters.parts, Parameters.filters_singleton hkey, List.flatMap_singleton]
    simp only [hkind, keyParts, List.zipIdx_singleton, List.flatMap_singleton, Nat.lt_irrefl,
      decide_false, Bool.and_false]
  rw [planUnder, compileParameters_eq_ofParts, compileParameters_eq_ofParts, hparts, hparts,
    contribution_filter_plain hcomma hmark hc, contribution_exclude_of_unmarked hmark]
  rfl

namespace Store

/-- The rows of a model that a single filter selects, all rows being visible. -/
def selectedBy (s : Store) (m : Model) (key value : String) : Except StoreFault (List Row) :=
  s.selected m.key (s.registry.planUnder m (.ofPairs [(key, value)]) .always)

section Filter

variable {s : Store} {m : Model} {key value : String} {kind : FieldKind} {c : Condition}

/-- A single filter whose condition null does not meet selects the rows from which its path reaches
a value that meets the condition. -/
theorem exists_selectedBy (hm : s.registry.get? m.key = some m) {t : Table}
    (ht : s.table? m.key = some t) (hkey : Parameters.isReserved key = false)
    (hkind : s.registry.filterKind? m key = some kind) (hcomma : alternativeMark ∉ value.toList)
    (hmark : value.toList.head? ≠ some negationMark)
    (hc : compileValue (some kind) key value = some (.leaf c))
    (hnull : ¬(c.lookup = .exact ∧ c.operand = .null)) :
    ∃ rows, s.selectedBy m key value = .ok rows ∧ ∀ row, row ∈ rows ↔ row ∈ t.rows ∧
      ∃ v ∈ s.reached m row [] (pathSegments key), c.holdsOf v = true := by
  obtain ⟨c', hpath, hleaf⟩ := exists_of_compileValue hc
  obtain rfl : c = c' := Predicate.leaf.inj hleaf
  have hstrict : c.holdsOf .null = false := by
    rwa [← Bool.not_eq_true, Condition.holdsOf_null_iff]
  have hselected := selected_eq hm ht (s.registry.planUnder m (.ofPairs [(key, value)]) .always)
  refine ⟨_, hselected, fun row ↦ ?_⟩
  rw [mem_of_selected hm ht hselected,
    Registry.steps_planUnder_singleton hkey hkind hcomma hmark hc, List.all_cons, List.all_nil,
    Bool.and_true, keeps, s.holds_leaf, s.meets_iff_of_not_null hstrict, hpath]

end Filter

/-- A filter behind a relation has the kind of the shorter filter on the related model, and selects
exactly the rows whose relation holds the id of a row that the shorter filter selects there. -/
theorem selectedBy_relation (s : Store) (m other : Model) (relation key : String)
    (spec : FieldSpec) (kind : FieldKind) (hm : s.registry.get? m.key = some m)
    (hother : s.registry.get? other.key = some other)
    (hidentity : s.registry.isIdentity other.key = false)
    (hfield : m.field? relation = some spec) (hrelation : spec.kind.isRelation = true)
    (htarget : spec.target = some other.key) (hne : relation ≠ "") (hsegment : IsSegment relation)
    (hhead : relation.toList.head? ≠ some '_') (hlast : relation.toList.getLast? ≠ some '_')
    (hkey : Parameters.isReserved key = false)
    (hkind : s.registry.filterKind? other key = some kind) :
    s.registry.filterKind? m (joinPath [relation, key]) = s.registry.filterKind? other key ∧
      ∀ value c, alternativeMark ∉ value.toList → value.toList.head? ≠ some negationMark →
        compileValue (some kind) key value = some (.leaf c) →
        ¬(c.lookup = .exact ∧ c.operand = .null) →
        ∃ t related rows found, s.table? m.key = some t ∧ s.table? other.key = some related ∧
          s.selectedBy m (joinPath [relation, key]) value = .ok rows ∧
          s.selectedBy other key value = .ok found ∧
          ∀ row, row ∈ rows ↔ row ∈ t.rows ∧ ∃ id relatedRow, related.get? id = some relatedRow ∧
            relatedRow ∈ found ∧ (row.valueOf relation).holdsId id = true := by
  have hjoined := Registry.filterKind?_joinPath hsegment hlast hfield hrelation htarget hother
    hidentity hkind
  refine ⟨hjoined.trans hkind.symm, fun value c hcomma hmark hc hnull ↦ ?_⟩
  have hpath : joinPath [relation, key] ≠ "" := fun e ↦ by
    have htext := toList_joinPath_pair relation key
    rw [e] at htext
    exact absurd htext.symm (List.append_ne_nil_of_right_ne_nil _ (List.cons_ne_nil _ _))
  obtain ⟨t, ht⟩ := exists_table hm
  obtain ⟨related, hrelated⟩ := exists_table hother
  obtain ⟨rows, hrows, hmem⟩ := exists_selectedBy hm ht
    (Parameters.isReserved_joinPath hne hhead key) hjoined hcomma hmark
    (compileValue_of_path hc hpath) hnull
  obtain ⟨found, hfound, hmemFound⟩ := exists_selectedBy hother hrelated hkey hkind hcomma hmark hc
    hnull
  refine ⟨t, related, rows, found, ht, hrelated, hrows, hfound, fun row ↦ ?_⟩
  obtain ⟨rest, hrest⟩ := pathSegments_eq_cons key
  have hreached : ∀ v, v ∈ s.reached m row [] (relation :: pathSegments key) ↔ _ := fun v ↦
    mem_reached_related hfield hrelation htarget hidentity hother hrelated
      (hrest ▸ List.cons_ne_nil _ _)
  rw [hmem, pathSegments_joinPath hsegment hlast]
  simp only [hreached, hmemFound]
  refine and_congr_right fun _ ↦ ⟨?_, ?_⟩
  · rintro ⟨v, ⟨id, relatedRow, hget, hid, hv⟩, hholds⟩
    have hrow : relatedRow ∈ related.rows :=
      List.mem_map.mpr ⟨_, Table.get?_eq_some_iff.mp hget, rfl⟩
    exact ⟨id, relatedRow, hget, ⟨hrow, v, hv, hholds⟩, hid⟩
  · rintro ⟨id, relatedRow, hget, ⟨-, v, hv, hholds⟩, hid⟩
    exact ⟨v, ⟨id, relatedRow, hget, hid, hv⟩, hholds⟩

end Store

namespace Notes

/-- The notes of projects with the member `7` are those whose project is listed for the member. -/
theorem selectedBy_project_members :
    registry.filterKind? note "project__members__id"
        = registry.filterKind? project "members__id" ∧
      ∃ rows found, store.selectedBy note "project__members__id" "7" = .ok rows ∧
        store.selectedBy project "members__id" "7" = .ok found ∧
        ∀ row ∈ rows, ∃ related ∈ found, related.id? = some 1 ∧
          (row.valueOf "project").holdsId 1 = true := by
  have hnote : registry.get? note.key = some note :=
    (registry.get?_eq_some_iff _ _).mpr ⟨by simp [registry], rfl⟩
  have hproject : registry.get? project.key = some project :=
    (registry.get?_eq_some_iff _ _).mpr ⟨by simp [registry], rfl⟩
  have hpath : joinPath ["project", "members__id"] = "project__members__id" := by decide +kernel
  obtain ⟨hkind, hselects⟩ := Store.selectedBy_relation store note project "project" "members__id"
    ⟨.foreignKey, some project.key⟩ .auto hnote hproject (by decide +kernel) (by decide +kernel)
    rfl rfl (by decide) isSegment_project (by decide) (by decide) (by decide +kernel)
    (by decide +kernel)
  obtain ⟨t, related, rows, found, -, hrelated, hrows, hfound, hmem⟩ :=
    hselects "7" ⟨"members__id", .exact, .text "7"⟩ (by decide) (by decide) rfl
      (fun hnull ↦ Operand.noConfusion hnull.2)
  rw [hpath] at hkind hrows
  refine ⟨hkind, rows, found, hrows, hfound, fun row hrow ↦ ?_⟩
  obtain ⟨-, id, relatedRow, hget, hfoundRow, hholds⟩ := (hmem row).mp hrow
  -- The table of projects has one row.
  obtain rfl : ⟨_, _⟩ = related := Option.some.inj hrelated
  obtain ⟨rfl, rfl⟩ := Prod.mk.inj (List.mem_singleton.mp (Table.get?_eq_some_iff.mp hget))
  exact ⟨_, hfoundRow, by decide +kernel, hholds⟩

end Notes

end RowAccess

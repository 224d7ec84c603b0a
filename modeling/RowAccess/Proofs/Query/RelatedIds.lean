import RowAccess.Proofs.Query.Detail
import RowAccess.Proofs.Query.RelationPath

/-!
# Filters by the ids of related rows

A key that goes on behind a many-to-many field with `id` asks whether the field holds an id. The
value of the filter is compared with the ids of the related rows that are stored, so a filter by an
id selects the rows whose field holds it, provided that there is a related row of this id
(`selectedBy_item`). Whatever else a request asks for, and in whichever step the condition ends up,
it lists no row that does not meet it (`holdsId_of_lists`).
-/

namespace RowAccess

/-! ## A condition among others -/

theorem Parameters.mem_parts_of_plain {r : Registry} {m : Model} {pairs : List (String × String)}
    {key value : String} {kind : FieldKind} {q : Predicate} (hpair : (key, value) ∈ pairs)
    (hkey : isReserved key = false) (hcomma : alternativeMark ∉ value.toList)
    (hmark : value.toList.head? ≠ some negationMark) (hkind : r.filterKind? m key = some kind)
    (hq : compileValue (some kind) key value = some q) :
    ∃ apart, ⟨q, apart⟩ ∈ (ofPairs pairs).parts r m .filter := by
  obtain ⟨hfilter, hmem⟩ := exists_mem_filters hpair hkey
  obtain ⟨index, hindex⟩ := List.mem_iff_getElem?.mp hmem
  refine ⟨m.isManyToMany (pathRoot key) && 0 < index, mem_parts.mpr ⟨key, _, kind, hfilter, hkind,
    mem_keyParts.mpr ⟨_, index, hindex, ?_⟩⟩⟩
  rw [contribution_filter_plain hcomma hmark hq]
  exact List.mem_singleton_self _

/-- A row that a plan keeps meets each of the conditions that the plan filters by, unless it is one
that null meets. -/
theorem Plan.meets_of_keeps_combine {s : Store} {m : Model} {row : Row} {visibility : Predicate}
    {parts : List Part} {exclude : PredicateList} {c : Condition} {apart : Bool}
    (hnull : c.holdsOf .null = false) (hpart : ⟨.leaf c, apart⟩ ∈ parts)
    (h : (combine visibility (.ofParts parts) exclude).steps.all (s.keeps m row) = true) :
    s.meets m row [] c = true := by
  rw [combine, PredicateList.ofParts, List.cons_append, List.all_cons, List.all_append,
    List.all_map, Bool.and_eq_true, Bool.and_eq_true, List.all_eq_true (l := Part.alone parts)] at h
  obtain ⟨hfirst, halone, -⟩ := h
  cases apart with
  | true =>
    have hholds := halone _ (Part.mem_alone.mpr hpart)
    rwa [Function.comp_apply, Store.keeps, s.holds_leaf] at hholds
  | false =>
    refine s.meets_of_holds hnull (fun choices hsatisfies ↦ ?_) hfirst
    rw [Store.satisfies_mkAll, List.all_cons, List.all_cons, Bool.and_eq_true, Bool.and_eq_true,
      Store.satisfies_mkAll, List.all_eq_true] at hsatisfies
    exact hsatisfies.2.1 _ (Part.mem_joint.mpr hpart)

/-! ## Ids of related rows -/

/-- A many-to-many field of a model holds ids of another registered model, which numbers its rows
itself, and filter keys can go on behind the field. -/
structure Registry.LinksRows (r : Registry) (m other : Model) (field : String) : Prop where
  registered : r.get? m.key = some m
  target : r.get? other.key = some other
  notIdentity : r.isIdentity other.key = false
  numbered : (other.field? "id").map FieldSpec.kind = some .auto
  linked : m.field? field = some ⟨.manyToMany, some other.key⟩
  nonempty : field ≠ ""
  segment : IsSegment field
  head : field.toList.head? ≠ some '_'
  last : field.toList.getLast? ≠ some '_'

/-- The filter key that asks a field for an id. -/
def itemKey (field : String) : String := joinPath [field, "id"]

/-- The condition that a field leads to a row of an id. -/
def holdsItem (field : String) (n : Int) : Condition :=
  ⟨itemKey field, .exact, .text (Text.writeInt n)⟩

section Item

variable {field : String} {n : Int}

theorem holdsItem_null : (holdsItem field n).holdsOf .null = false := rfl

theorem holdsItem_int {id : Int} : (holdsItem field n).holdsOf (.int id) = true ↔ id = n := by
  have htext : (holdsItem field n).holdsOf (.int id) = (Text.writeInt n == Text.writeInt id) := rfl
  rw [htext, beq_iff_eq]
  exact ⟨fun h ↦ (Text.writeInt_injective (congrArg String.toList h)).symm, fun h ↦ h ▸ rfl⟩

theorem compileValue_item :
    compileValue (some .auto) (itemKey field) (Text.writeInt n)
      = some (.leaf (holdsItem field n)) := by
  have hkey : itemKey field ≠ "" := fun e ↦ by
    have htext := toList_joinPath_pair field "id"
    rw [← itemKey, e] at htext
    exact absurd htext.symm (List.append_ne_nil_of_right_ne_nil _ (List.cons_ne_nil _ _))
  rw [compileValue, if_neg (by simp [hkey, Text.writeInt_ne_empty])]
  rfl

theorem alternativeMark_not_mem_writeInt : alternativeMark ∉ (Text.writeInt n).toList :=
  Text.not_mem_writeInt (by decide) (by decide) n

theorem head?_writeInt_ne : (Text.writeInt n).toList.head? ≠ some negationMark := fun h ↦
  Text.not_mem_writeInt (by decide) (by decide) n (List.mem_of_head? h)

end Item

namespace Registry.LinksRows

variable {r : Registry} {m other : Model} {field : String}

theorem isReserved_itemKey (h : r.LinksRows m other field) :
    Parameters.isReserved (itemKey field) = false :=
  Parameters.isReserved_joinPath h.nonempty h.head "id"

theorem pathSegments_itemKey (h : r.LinksRows m other field) :
    pathSegments (itemKey field) = [field, "id"] := by
  rw [itemKey, pathSegments_joinPath h.segment h.last]
  exact congrArg (field :: ·) (by decide +kernel)

theorem filterKind?_itemKey (h : r.LinksRows m other field) :
    r.filterKind? m (itemKey field) = some .auto := by
  refine filterKind?_joinPath h.segment h.last h.linked rfl rfl h.target h.notIdentity ?_
  obtain ⟨spec, hspec, hkind⟩ := Option.map_eq_some_iff.mp h.numbered
  have hroot : pathRoot "id" = "id" := by decide +kernel
  rw [filterKind?, hroot, hspec]
  simp [hkind, FieldKind.isRelation]

variable {s : Store} {row : Row} {n : Int}

/-- The key of a field and an id reaches the id from the rows whose field holds it, if there is a
related row of this id. -/
theorem reaches_item_iff (h : s.registry.LinksRows m other field) (hids : s.KeepsIds) :
    (∃ v ∈ s.reached m row [] (pathSegments (itemKey field)),
        (holdsItem field n).holdsOf v = true) ↔
      (∃ related, s.get other.key n = .ok (some related)) ∧
        (row.valueOf field).holdsId n = true := by
  obtain ⟨t, ht⟩ := Store.exists_table h.target
  have hreached : ∀ {id related}, s.get other.key id = .ok (some related) →
      s.reached other related [] ["id"] = [.int id] :=
    fun hrow ↦ s.reached_id (hids _ _ _ hrow) nofun
  simp only [h.pathSegments_itemKey, Store.mem_reached_related h.linked rfl rfl h.notIdentity
    h.target ht (List.cons_ne_nil "id" []), ← Store.get_eq_ok_iff_of_table ht]
  constructor
  · rintro ⟨v, ⟨id, related, hrow, hid, hv⟩, hholds⟩
    rw [hreached hrow, List.mem_singleton] at hv
    obtain rfl := holdsItem_int.mp (hv ▸ hholds)
    exact ⟨⟨related, hrow⟩, hid⟩
  · rintro ⟨⟨related, hrow⟩, hid⟩
    refine ⟨.int n, ⟨n, related, hrow, hid, ?_⟩, holdsItem_int.mpr rfl⟩
    rw [hreached hrow]
    exact List.mem_singleton_self _

/-- A filter by an id selects the rows whose field holds it, if there is a related row of this
id. -/
theorem exists_selectedBy_item (h : s.registry.LinksRows m other field) (hids : s.KeepsIds)
    (n : Int) :
    ∃ rows, s.selectedBy m (itemKey field) (Text.writeInt n) = .ok rows ∧
      ∀ id row, s.get m.key id = .ok (some row) →
        (row ∈ rows ↔ (∃ related, s.get other.key n = .ok (some related)) ∧
          (row.valueOf field).holdsId n = true) := by
  obtain ⟨t, ht⟩ := Store.exists_table h.registered
  obtain ⟨rows, hrows, hmem⟩ := Store.exists_selectedBy h.registered ht h.isReserved_itemKey
    h.filterKind?_itemKey alternativeMark_not_mem_writeInt head?_writeInt_ne
    (@compileValue_item field n) (fun hnull ↦ nomatch hnull.2)
  refine ⟨rows, hrows, fun id row hrow ↦ ?_⟩
  rw [hmem, ← h.reaches_item_iff hids]
  exact and_iff_right (Table.mem_rows_of_get? ((Store.get_eq_ok_iff_of_table ht).mp hrow))

/-- Whatever else a request asks for, if it filters by an id, it lists rows whose field holds the
id only. -/
theorem holdsId_of_lists {service : Service} {now : Instant} {request : Request}
    {app model : String} {identity : Identity} {visibility : Predicate} {t : Table}
    {rows : List Row} (h : s.registry.LinksRows m other field) (hids : s.KeepsIds)
    (hlists : service.Lists now s request app model m identity visibility t rows)
    (hpair : (itemKey field, Text.writeInt n) ∈ request.pairs) (hrow : row ∈ rows) :
    (row.valueOf field).holdsId n = true := by
  have hkeeps := (hlists.mem_rows.mp hrow).2
  rw [Registry.planUnder] at hkeeps
  rw [compileParameters_eq_ofParts _ _ _ .filter] at hkeeps
  obtain ⟨apart, hpart⟩ := Parameters.mem_parts_of_plain hpair h.isReserved_itemKey
    alternativeMark_not_mem_writeInt head?_writeInt_ne h.filterKind?_itemKey compileValue_item
  have hmeets := Plan.meets_of_keeps_combine holdsItem_null hpart hkeeps
  rw [s.meets_iff_of_not_null holdsItem_null] at hmeets
  exact ((h.reaches_item_iff hids).mp hmeets).2

end Registry.LinksRows

end RowAccess

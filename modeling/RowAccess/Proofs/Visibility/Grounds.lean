import RowAccess.Proofs.Evaluation.Disjunction
import RowAccess.Proofs.Outcome
import RowAccess.Proofs.Store.Selection
import RowAccess.Visibility.Policy

/-!
# Grounds for showing a row

A row may be shown because it is marked as public, because the requester owns it, or because a
project that it belongs to names the requester as a member. Here each ground is read off the stored
values, without paths and choices, and shown to be what its predicate selects.
-/

namespace RowAccess

/-! ## Grounds in stored values -/

/-- Whether the stored value of a relation holds an id, alone or among others. -/
def Json.holdsId (value : Json) (id : Int) : Bool :=
  match value with
  | .array items => items.any fun item ↦ item.asInt64? == some id
  | value => value.asInt64? == some id

/-- Whether a row is marked as public. -/
def Row.isPublic (row : Row) : Bool :=
  match row.valueOf "public" with
  | .bool true => true
  | _ => false

/-- Whether a user owns a row of a model. -/
def Model.owns (m : Model) (user : Int) (row : Row) : Bool :=
  (row.valueOf m.ownerField).holdsId user

/-- Whether a project that a row holds exists and names a user as a member. -/
def Store.hasMember (s : Store) (m : Model) (user : Int) (row : Row) : Bool :=
  match s.registry.get? m.projectKey, s.table? m.projectKey with
  | some project, some t =>
    t.entries.any fun (id, projectRow) ↦
      (row.valueOf "project").holdsId id &&
        project.userFields.any fun field ↦ (projectRow.valueOf field).holdsId user
  | _, _ => false

theorem Json.holdsId_iff {value : Json} {id : Int} :
    value.holdsId id = true ↔ ∃ v ∈ relatedIds value, v.asInt64? = some id := by
  cases value with
  | array items =>
    rw [holdsId, relatedIds, List.any_eq_true]
    refine exists_congr fun v ↦ ?_
    rw [List.mem_filter, beq_iff_eq]
    refine ⟨fun ⟨hmem, hid⟩ ↦ ⟨⟨hmem, ?_⟩, hid⟩, fun ⟨⟨hmem, _⟩, hid⟩ ↦ ⟨hmem, hid⟩⟩
    cases v <;> first | rfl | exact nomatch hid
  | null => simp [holdsId, relatedIds, asInt64?]
  | bool b => simp [holdsId, relatedIds]
  | number n => simp [holdsId, relatedIds]
  | text s => simp [holdsId, relatedIds]
  | object fields => simp [holdsId, relatedIds]

theorem Operand.matchesStored_int {a : Int} {value : Json} :
    (Operand.int a).matchesStored value = true ↔ value.asInt64? = some a := by
  cases value <;> simp [matchesStored, Json.asInt64?]

/-! ## Paths of the grounds -/

theorem isSegment_project : IsSegment "project" := by
  rw [IsSegment]
  decide +kernel

theorem isDisjunction_publicRows : publicRows.IsDisjunction := Predicate.isDisjunction_leaf rfl

theorem isDisjunction_ownedRows (m : Model) (user : Int) : (ownedRows m user).IsDisjunction :=
  Predicate.isDisjunction_leaf rfl

theorem isDisjunction_memberRows (project : Model) (user : Int) :
    (memberRows project user).IsDisjunction :=
  Predicate.isDisjunction_mkAny fun part hpart ↦ by
    obtain ⟨field, _, rfl⟩ := List.mem_map.mp hpart
    exact Predicate.isDisjunction_leaf rfl

namespace Store

variable (s : Store) {m : Model} {row : Row}

/-- The flag that marks public rows is compared as it is stored. -/
theorem holds_publicRows (h : m.hasFlag "public" = true) :
    s.holds m row publicRows = row.isPublic := by
  have hplain : m.hasRelation "public" = false := by
    obtain ⟨spec, hfield, hflag⟩ := Model.hasFlag_iff.mp h
    rw [Model.hasRelation, hfield, Option.any_some]
    cases hkind : spec.kind <;> first | rfl | exact absurd (hkind ▸ hflag) (by decide)
  have hreached : s.reached m row [] (pathSegments "public") = [row.valueOf "public"] := by
    rw [pathSegments_eq_singleton (by rw [IsSegment]; decide), s.reached_plain m row hplain]
    rfl
  rw [publicRows, Predicate.eq, Predicate.compare, s.holds_leaf, meets, hreached, Row.isPublic]
  simp only [List.any_cons, List.any_nil, Bool.or_false, Condition.holdsOf]
  cases row.valueOf "public" with
  | bool b => cases b <;> rfl
  | null => rfl
  | number n => rfl
  | text t => rfl
  | array items => rfl
  | object fields => rfl

theorem reached_name {name : String} (h : m.hasRelation name = true) :
    s.reached m row [] [name] = relatedIds (row.valueOf name) := by
  obtain ⟨spec, hfield, hkind⟩ := Model.hasRelation_iff.mp h
  rw [s.reached_relation m row hfield hkind, idsUnder]
  · exact List.flatMap_singleton' _
  · exact fun _ _ hchoice ↦ nomatch hchoice

theorem meets_exact_int {path : String} {user : Int} :
    s.meets m row [] ⟨path, .exact, .int user⟩ = true ↔
      ∃ v ∈ s.reached m row [] (pathSegments path), v.asInt64? = some user := by
  rw [s.meets_iff_of_not_null rfl]
  exact exists_congr fun v ↦ and_congr_right fun _ ↦ Operand.matchesStored_int

/-- A path that goes on behind a relation reaches what it reaches from the stored rows whose ids the
relation holds. An id without a row leads nowhere. -/
theorem mem_reached_related {s : Store} {target : ModelKey} {other : Model} {t : Table}
    {relation : String} {spec : FieldSpec} (hfield : m.field? relation = some spec)
    (hkind : spec.kind.isRelation = true) (htarget : spec.target = some target)
    (hidentity : s.registry.isIdentity target = false)
    (hother : s.registry.get? target = some other) (ht : s.table? target = some t)
    {rest : List String} (hrest : rest ≠ []) {v : Json} :
    v ∈ s.reached m row [] (relation :: rest) ↔ ∃ id related, t.get? id = some related ∧
      (row.valueOf relation).holdsId id = true ∧ v ∈ s.reached other related [] rest := by
  have hids : idsUnder spec.kind (([] : List (String × Choice)).lookup relation)
      (row.valueOf relation) = relatedIds (row.valueOf relation) := by
    cases spec.kind <;> rfl
  have hvia : ∀ id, s.reachedVia spec rest id = ((id.asInt64?.bind t.get?).map fun related ↦
      s.reached other related [] rest).getD [] := fun id ↦ by
    rw [reachedVia]
    simp only [List.isEmpty_iff, hrest, if_false, htarget, hidentity, Bool.false_eq_true, hother,
      ht]
    cases id.asInt64?.bind t.get? <;> rfl
  rw [s.reached_relation m row hfield hkind, hids, List.mem_flatMap]
  simp only [hvia, Json.holdsId_iff]
  constructor
  · rintro ⟨idValue, hid, hv⟩
    cases hrow : idValue.asInt64?.bind t.get? with
    | none => simp [hrow] at hv
    | some related =>
      obtain ⟨id, hint, hget⟩ := Option.bind_eq_some_iff.mp hrow
      exact ⟨id, related, hget, ⟨idValue, hid, hint⟩, by simpa [hrow] using hv⟩
  · rintro ⟨id, related, hget, ⟨idValue, hid, hint⟩, hv⟩
    refine ⟨idValue, hid, ?_⟩
    rw [hint, Option.bind_some, hget]
    exact hv

theorem holds_ownedRows (hrelation : m.hasRelation m.ownerField = true)
    (hname : IsSegment m.ownerField) (user : Int) :
    s.holds m row (ownedRows m user) = m.owns user row := by
  rw [ownedRows, Predicate.eq, Predicate.compare, s.holds_leaf, Bool.eq_iff_iff,
    meets_exact_int, pathSegments_eq_singleton hname, s.reached_name hrelation, Model.owns,
    Json.holdsId_iff]

end Store

/-! ## Members of projects -/

/-- What a membership predicate relies on: the projects of a model are the rows that its relation
`project` points at, and they name their members in relations. -/
structure Registry.ReachesMembers (r : Registry) (m project : Model) : Prop where
  relation : m.hasRelation "project" = true
  target : (m.field? "project").bind FieldSpec.target = some m.projectKey
  notIdentity : r.isIdentity m.projectKey = false
  registered : r.get? m.projectKey = some project
  users : ∀ field ∈ project.userFields, project.hasRelation field = true ∧ IsSegment field

namespace Store

variable {s : Store} {m project : Model} {row : Row} {t : Table} {user : Int}

/-- A path to a field of the project reaches the ids that the stored projects hold there. -/
theorem mem_reached_project (h : s.registry.ReachesMembers m project)
    (ht : s.table? m.projectKey = some t) {field : String} (hfield : field ∈ project.userFields)
    {v : Json} :
    v ∈ s.reached m row [] ["project", field] ↔ ∃ id projectRow, (id, projectRow) ∈ t.entries ∧
      (row.valueOf "project").holdsId id = true ∧ v ∈ relatedIds (projectRow.valueOf field) := by
  obtain ⟨spec, hspec, hkind⟩ := Model.hasRelation_iff.mp h.relation
  have htarget : spec.target = some m.projectKey := by
    have := h.target
    rwa [hspec] at this
  have hname : ∀ projectRow, s.reached project projectRow [] [field]
      = relatedIds (projectRow.valueOf field) := fun _ ↦ s.reached_name (h.users field hfield).1
  rw [mem_reached_related hspec hkind htarget h.notIdentity h.registered ht
    (List.cons_ne_nil field [])]
  simp only [hname, Table.get?_eq_some_iff]

/-- A row of a project of a user is one whose stored project stores the user. -/
theorem holds_memberRows (h : s.registry.ReachesMembers m project) :
    s.holds m row (memberRows project user) = s.hasMember m user row := by
  obtain ⟨t, ht⟩ := exists_table h.registered
  rw [memberRows, s.holds_mkAny fun part hpart ↦ by
    obtain ⟨field, _, rfl⟩ := List.mem_map.mp hpart
    exact Predicate.isDisjunction_leaf rfl, hasMember, h.registered, ht, Bool.eq_iff_iff]
  have hfield : ∀ field ∈ project.userFields,
      (s.holds m row (.eq (joinPath ["project", field]) (.int user)) = true ↔
        ∃ id projectRow, (id, projectRow) ∈ t.entries ∧
          (row.valueOf "project").holdsId id = true ∧
          (projectRow.valueOf field).holdsId user = true) := fun field hmem ↦ by
    rw [Predicate.eq, Predicate.compare, s.holds_leaf, meets_exact_int,
      pathSegments_joinPath isSegment_project (by decide),
      pathSegments_eq_singleton (h.users field hmem).2]
    constructor
    · rintro ⟨v, hv, huser⟩
      obtain ⟨id, p, hentry, hid, hstored⟩ := (mem_reached_project h ht hmem).mp hv
      exact ⟨id, p, hentry, hid, Json.holdsId_iff.mpr ⟨v, hstored, huser⟩⟩
    · rintro ⟨id, p, hentry, hid, hholds⟩
      obtain ⟨v, hstored, huser⟩ := Json.holdsId_iff.mp hholds
      exact ⟨v, (mem_reached_project h ht hmem).mpr ⟨id, p, hentry, hid, hstored⟩, huser⟩
  simp only [List.any_map, List.any_eq_true, Function.comp_apply, Bool.and_eq_true]
  constructor
  · rintro ⟨field, hmem, hholds⟩
    obtain ⟨id, p, hentry, hid, huser⟩ := (hfield field hmem).mp hholds
    exact ⟨(id, p), hentry, hid, field, hmem, huser⟩
  · rintro ⟨⟨id, p⟩, hentry, hid, field, hmem, huser⟩
    exact ⟨field, hmem, (hfield field hmem).mpr ⟨id, p, hentry, hid, huser⟩⟩

end Store

/-! ## Visibility in general -/

/-- A visibility is trivial or a disjunction of grounds. -/
theorem Registry.eq_always_or_isDisjunction_of_visibleRows {r : Registry} {m : Model}
    {identity : Identity} {p : Parameters} {visibility : Predicate}
    (h : r.visibleRows m identity p = .ok visibility) :
    visibility = .always ∨ visibility.IsDisjunction := by
  have hpublic := isDisjunction_publicRows
  have howned := isDisjunction_ownedRows m
  have hmember := isDisjunction_memberRows
  unfold visibleRows at h
  cases htier : m.tier <;> simp only [htier] at h
  case «public» => exact .inl (Except.ok.inj h).symm
  case loggedIn =>
    obtain ⟨_, _, h⟩ := Outcome.bind_eq_ok_iff.mp h
    exact .inl (Except.ok.inj h).symm
  case publicOrProject =>
    obtain ⟨_, h⟩ := Outcome.check_bind_eq_ok_iff.mp h
    split at h
    · exact .inr (Except.ok.inj h ▸ hpublic)
    · split at h
      · exact .inl (Except.ok.inj h).symm
      · split at h
        · exact .inr (Except.ok.inj h ▸ hpublic)
        · obtain ⟨project, _, h⟩ := Outcome.bind_eq_ok_iff.mp h
          exact .inr (Except.ok.inj h ▸ hpublic.or (hmember _ _))
  case project =>
    obtain ⟨user, _, h⟩ := Outcome.bind_eq_ok_iff.mp h
    obtain ⟨_, h⟩ := Outcome.check_bind_eq_ok_iff.mp h
    split at h
    · exact nomatch h
    · split at h
      · exact .inl (Except.ok.inj h).symm
      · obtain ⟨project, _, h⟩ := Outcome.bind_eq_ok_iff.mp h
        exact .inr (Except.ok.inj h ▸ hmember _ _)
  case projectOrUser =>
    obtain ⟨user, _, h⟩ := Outcome.bind_eq_ok_iff.mp h
    obtain ⟨_, h⟩ := Outcome.check_bind_eq_ok_iff.mp h
    split at h
    · exact nomatch h
    · split at h
      · exact .inl (Except.ok.inj h).symm
      · obtain ⟨project, _, h⟩ := Outcome.bind_eq_ok_iff.mp h
        exact .inr (Except.ok.inj h ▸ (howned _).or (hmember _ _))
  case publicOrUser =>
    obtain ⟨_, h⟩ := Outcome.check_bind_eq_ok_iff.mp h
    split at h
    · exact .inr (Except.ok.inj h ▸ hpublic)
    · split at h
      · exact .inl (Except.ok.inj h).symm
      · exact .inr (Except.ok.inj h ▸ hpublic.or (howned _))
  case «private» =>
    obtain ⟨user, _, h⟩ := Outcome.bind_eq_ok_iff.mp h
    split at h
    · exact .inl (Except.ok.inj h).symm
    · exact .inr (Except.ok.inj h ▸ howned _)

theorem Registry.strict_of_visibleRows {r : Registry} {m : Model} {identity : Identity}
    {p : Parameters} {visibility : Predicate} (h : r.visibleRows m identity p = .ok visibility) :
    ∀ c ∈ visibility.positive, c.holdsOf .null = false := by
  rcases eq_always_or_isDisjunction_of_visibleRows h with rfl | hdisjunction
  · rw [Predicate.positive_always]
    exact fun c hc ↦ absurd hc List.not_mem_nil
  · exact hdisjunction.strict

end RowAccess

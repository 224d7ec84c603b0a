import RowAccess.Proofs.Evaluation.Choices
import RowAccess.Proofs.Visibility.Startup

/-!
# Well-typed paths

A path is well typed if it follows relations, each a field that a filter may name on the model the
one before leads to, and ends on such a field that is none. Well-typed paths are described here by
themselves, one constructor for each kind of segment, and compared with the walk that finds kinds.

The walk ends where it meets a field that is no relation, and it does not ask whether the path ends
there too. So a path has a kind if and only if it begins with a well-typed one. Segments behind the
field name nothing: a condition on such a path reaches no value, in any row of any store, and is
decided on null.
-/

namespace RowAccess

/-- Only the relations of a model lead to a model. -/
def Model.OnlyRelationsLead (m : Model) : Prop :=
  ∀ name spec, m.field? name = some spec → spec.target.isSome = true → spec.kind.isRelation = true

namespace Registry

/-- A path behind a relation to a target: relations follow one another, each from the target of the
one before, up to a field that is none, whose kind is the kind of the path. -/
inductive TypedBehind (r : Registry) : ModelKey → List String → FieldKind → Prop
  | field {target : ModelKey} {name : String} {spec : FieldSpec}
    (named : r.searchable? target name = some spec) (plain : spec.kind.isRelation = false) :
    TypedBehind r target [name] spec.kind
  | relation {target next : ModelKey} {name : String} {spec : FieldSpec} {segments : List String}
    {kind : FieldKind} (named : r.searchable? target name = some spec)
    (related : spec.kind.isRelation = true) (leads : spec.target = some next)
    (behind : TypedBehind r next segments kind) : TypedBehind r target (name :: segments) kind

/-- A well-typed path from a model: a relation that it declares, and a path behind it. -/
inductive WellTyped (r : Registry) (m : Model) : List String → FieldKind → Prop
  | relation {target : ModelKey} {name : String} {spec : FieldSpec} {segments : List String}
    {kind : FieldKind} (declared : m.field? name = some spec)
    (related : spec.kind.isRelation = true) (leads : spec.target = some target)
    (behind : r.TypedBehind target segments kind) : WellTyped r m (name :: segments) kind

variable {r : Registry} {m : Model} {segments : List String} {kind : FieldKind}

theorem TypedBehind.exists_cons {target : ModelKey} (h : r.TypedBehind target segments kind) :
    ∃ name rest, segments = name :: rest := by
  cases h with
  | field => exact ⟨_, _, rfl⟩
  | relation => exact ⟨_, _, rfl⟩

theorem kindAlong?_append (h : r.WellTyped m segments kind) (rest : List String) :
    r.kindAlong? m (segments ++ rest) = some kind := by
  obtain @⟨_, first, spec, _, _, declared, -, leads, behind⟩ := h
  induction behind generalizing m first spec with
  | field named plain => simp [kindAlong?, declared, leads, named, plain]
  | relation named related next behind ih =>
    obtain ⟨m', hm', hfield⟩ := exists_field?_of_searchable? named related
    have hnext := ih hfield next
    obtain ⟨_, _, rfl⟩ := behind.exists_cons
    simpa [kindAlong?, declared, leads, named, related, hm'] using hnext

/-- Where a walk finds a kind, it has followed a well-typed path. -/
theorem exists_wellTyped_of_kindAlong? (hm : m.OnlyRelationsLead)
    (hmodels : ∀ m ∈ r.models, m.OnlyRelationsLead) (h : r.kindAlong? m segments = some kind) :
    ∃ typed rest, segments = typed ++ rest ∧ r.WellTyped m typed kind := by
  induction segments generalizing m with
  | nil => exact nomatch h
  | cons first rest ih =>
    cases rest with
    | nil => exact nomatch h
    | cons next rest =>
      rw [kindAlong?] at h
      obtain ⟨spec, hspec, h⟩ := Option.bind_eq_some_iff.mp h
      obtain ⟨target, htarget, h⟩ := Option.bind_eq_some_iff.mp h
      obtain ⟨found, hfound, h⟩ := Option.bind_eq_some_iff.mp h
      have hrelation := hm first spec hspec (by rw [htarget, Option.isSome_some])
      cases hkind : found.kind.isRelation with
      | false =>
        rw [hkind, if_neg Bool.false_ne_true] at h
        obtain rfl := Option.some.inj h
        exact ⟨[first, next], rest, rfl, .relation hspec hrelation htarget (.field hfound hkind)⟩
      | true =>
        rw [hkind, if_pos rfl] at h
        obtain ⟨m', hm', h⟩ := Option.bind_eq_some_iff.mp h
        obtain ⟨found', hfound', hfield⟩ := exists_field?_of_searchable? hfound hkind
        obtain rfl := Option.some.inj (hm'.symm.trans hfound')
        obtain ⟨typed, beyond, hsegments, hnext⟩ :=
          ih (hmodels m' (List.mem_of_find?_eq_some hm')) h
        -- The walk goes on from a relation of the target, which the filter may name.
        obtain ⟨declared, related, leads, behind⟩ := hnext
        obtain ⟨rfl, rfl⟩ := List.cons.inj hsegments
        obtain rfl := Option.some.inj (declared.symm.trans hfield)
        exact ⟨_, beyond, rfl,
          .relation hspec hrelation htarget (.relation hfound related leads behind)⟩

theorem isRelation_of_kindAlong? (h : r.kindAlong? m segments = some kind) :
    kind.isRelation = false := by
  fun_induction kindAlong? r m segments with
  | case1 m first next rest ih =>
    obtain ⟨spec, -, h⟩ := Option.bind_eq_some_iff.mp h
    obtain ⟨target, -, h⟩ := Option.bind_eq_some_iff.mp h
    obtain ⟨found, -, h⟩ := Option.bind_eq_some_iff.mp h
    cases hkind : found.kind.isRelation with
    | true =>
      rw [hkind, if_pos rfl] at h
      obtain ⟨m', -, h⟩ := Option.bind_eq_some_iff.mp h
      exact ih m' h
    | false =>
      rw [hkind, if_neg Bool.false_ne_true] at h
      rw [← Option.some.inj h, hkind]
  | case2 => exact nomatch h

theorem isRelation_of_filterKind? {key : String} (h : r.filterKind? m key = some kind) :
    kind.isRelation = false := by
  obtain ⟨spec, -, h⟩ := Option.bind_eq_some_iff.mp h
  cases hkind : spec.kind.isRelation with
  | true =>
    rw [hkind, if_pos rfl] at h
    exact isRelation_of_kindAlong? h
  | false =>
    rw [hkind, if_neg Bool.false_ne_true] at h
    split at h
    · rw [← Option.some.inj h, hkind]
    · exact nomatch h

/-- A path may be followed by its text as well as by its segments: behind a relation to a relation,
the kind is that of the rest of the text, read as a path of the target. -/
theorem relatedKind?_eq (r : Registry) (m : Model) (path : String) :
    r.relatedKind? m path =
      match pathSegments path with
      | first :: next :: rest => do
        let target ← (← m.field? first).target
        let spec ← r.searchable? target next
        if spec.kind.isRelation then
          r.relatedKind? (← r.get? target) (joinPath (next :: rest))
        else some spec.kind
      | _ => none := by
  rw [relatedKind?]
  split
  · rename_i first next rest hpath
    simp only [hpath, kindAlong?, relatedKind?, pathSegments_joinPath_rest hpath]
  · rename_i hshort
    cases hpath : pathSegments path with
    | nil => rfl
    | cons first rest =>
      cases rest with
      | nil => rfl
      | cons next rest => exact absurd hpath (hshort first next rest)

end Registry

namespace Store

variable {s : Store} {m : Model} {row : Row} {segments rest : List String} {kind : FieldKind}

/-- Nothing is reached through a related id if the rest of the path reaches nothing in any row of
the target. The identity model has no rows to ask, and answers to its `id` alone. -/
theorem reachedVia_eq_nil_of_rows {spec : FieldSpec} {target : ModelKey}
    (htarget : spec.target = some target) {next : String} (hrest : rest ≠ [])
    (h : ∀ m', s.registry.isIdentity target = false → s.registry.get? target = some m' →
      ∀ row, s.reached m' row [] (next :: rest) = []) (id : Json) :
    s.reachedVia spec (next :: rest) id = [] := by
  have hid : next :: rest ≠ ["id"] := fun e ↦ hrest (List.cons.inj e).2
  rw [reachedVia, List.isEmpty_cons, if_neg Bool.false_ne_true, htarget]
  dsimp only
  cases hidentity : s.registry.isIdentity target with
  | true => rw [if_pos rfl, if_neg hid]
  | false =>
    rw [if_neg Bool.false_ne_true]
    split
    · rename_i m' t hm' _
      cases id.asInt64?.bind t.get? with
      | none => rfl
      | some row => exact h m' hidentity hm' row
    · rfl

theorem reachedVia_eq_nil {spec : FieldSpec} {target : ModelKey}
    (htarget : spec.target = some target) (h : s.registry.TypedBehind target segments kind)
    (hrest : rest ≠ []) (id : Json) : s.reachedVia spec (segments ++ rest) id = [] := by
  induction h generalizing spec id with
  | field named plain =>
    refine reachedVia_eq_nil_of_rows htarget hrest (fun m' hidentity hm' row ↦ ?_) id
    rw [Registry.searchable?, hidentity, if_neg Bool.false_ne_true, hm', Option.bind_some] at named
    rw [s.reached_plain m' row (by rw [Model.hasRelation, named, Option.any_some, plain]),
      List.isEmpty_eq_false_iff.mpr hrest, if_neg Bool.false_ne_true]
  | relation named related leads behind ih =>
    have hbeyond : ∀ {l : List String}, l ++ rest ≠ [] := fun e ↦
      hrest (List.append_eq_nil_iff.mp e).2
    refine reachedVia_eq_nil_of_rows htarget hbeyond (fun m' _ hm' row ↦ ?_) id
    obtain ⟨found, hfound, hfield⟩ := Registry.exists_field?_of_searchable? named related
    obtain rfl := Option.some.inj (hm'.symm.trans hfound)
    rw [s.reached_relation m' row hfield related]
    exact List.flatMap_eq_nil_iff.mpr fun id _ ↦ ih leads id

theorem reached_eq_nil (h : s.registry.WellTyped m segments kind) (hrest : rest ≠ [])
    (choices : List (String × Choice)) : s.reached m row choices (segments ++ rest) = [] := by
  obtain ⟨declared, related, leads, behind⟩ := h
  rw [List.cons_append, s.reached_relation m row declared related]
  exact List.flatMap_eq_nil_iff.mpr fun id _ ↦ reachedVia_eq_nil leads behind hrest id

end Store

namespace Registry

/-- A path has a kind if and only if it begins with a well-typed path, whose kind it is. If more
segments follow, a condition on the path is decided on null, whatever the row is. -/
theorem kind_iff_begins_wellTyped (r : Registry) (m : Model) (hm : m.OnlyRelationsLead)
    (hmodels : ∀ m ∈ r.models, m.OnlyRelationsLead) (path : String) :
    (∀ kind, r.relatedKind? m path = some kind ↔
      ∃ typed rest, pathSegments path = typed ++ rest ∧ r.WellTyped m typed kind) ∧
    ∀ typed rest kind, pathSegments path = typed ++ rest → r.WellTyped m typed kind → rest ≠ [] →
      ∀ s : Store, s.registry = r → ∀ row choices lookup operand,
        s.meets m row choices ⟨path, lookup, operand⟩
          = Condition.holdsOf ⟨path, lookup, operand⟩ .null := by
  refine ⟨fun kind ↦ ⟨exists_wellTyped_of_kindAlong? hm hmodels, ?_⟩, ?_⟩
  · rintro ⟨typed, rest, hpath, htyped⟩
    rw [relatedKind?, hpath]
    exact kindAlong?_append htyped rest
  · rintro typed rest kind hpath htyped hrest s rfl row choices lookup operand
    rw [Store.meets, hpath, Store.reached_eq_nil htyped hrest]

end Registry

/-! ## Paths from notes -/

namespace Notes

theorem onlyRelationsLead : ∀ m ∈ registry.models, m.OnlyRelationsLead := by
  intro m hm name spec hfield
  have hentry := (lookup_eq_some_iff_mem m.fields.nodup).mp hfield
  have hentries : ∀ m ∈ registry.models, ∀ entry ∈ m.fields.entries,
      entry.2.target.isSome = true → entry.2.kind.isRelation = true := by decide +kernel
  exact hentries m hm _ hentry

theorem wellTyped_project_id : registry.WellTyped note ["project", "id"] .auto := by
  have hid : registry.searchable? project.key "id" = some ⟨.auto, none⟩ := by decide +kernel
  have hproject : note.field? "project" = some ⟨.foreignKey, some project.key⟩ := by decide +kernel
  exact .relation hproject rfl rfl (.field hid rfl)

/-- The id of the project of a note has a kind. A condition behind it is decided on null. -/
theorem kind_of_project_id :
    registry.relatedKind? note "project__id" = some .auto ∧
      ∀ s : Store, s.registry = registry → ∀ row choices lookup operand,
        s.meets note row choices ⟨"project__id__size", lookup, operand⟩
          = Condition.holdsOf ⟨"project__id__size", lookup, operand⟩ .null := by
  have hnote : note.OnlyRelationsLead := onlyRelationsLead note (by simp [registry])
  obtain ⟨hkind, -⟩ :=
    registry.kind_iff_begins_wellTyped note hnote onlyRelationsLead "project__id"
  obtain ⟨-, hbeyond⟩ :=
    registry.kind_iff_begins_wellTyped note hnote onlyRelationsLead "project__id__size"
  exact ⟨(hkind .auto).mpr ⟨["project", "id"], [], by decide +kernel, wellTyped_project_id⟩,
    hbeyond ["project", "id"] ["size"] .auto (by decide +kernel) wellTyped_project_id
      (List.cons_ne_nil _ _)⟩

/-- Behind the id of the project of a note there is no field `size`, and yet the path has a kind. -/
theorem superfluous_segment_has_kind :
    registry.relatedKind? note "project__id__size" = some .auto ∧
      ∀ kind, ¬registry.WellTyped note (pathSegments "project__id__size") kind := by
  have hsegments : pathSegments "project__id__size" = ["project", "id", "size"] := by
    decide +kernel
  have hproject : note.field? "project" = some ⟨.foreignKey, some project.key⟩ := by decide +kernel
  have hid : registry.searchable? project.key "id" = some ⟨.auto, none⟩ := by decide +kernel
  refine ⟨by decide +kernel, fun kind h ↦ ?_⟩
  rw [hsegments] at h
  cases h with
  | relation declared _ leads behind =>
    rw [← Option.some.inj (hproject.symm.trans declared)] at leads
    rw [← Option.some.inj leads] at behind
    -- A segment with another one behind it has to be a relation.
    cases behind with
    | relation named related =>
      rw [← Option.some.inj (hid.symm.trans named)] at related
      exact absurd related (by decide)

end Notes

end RowAccess

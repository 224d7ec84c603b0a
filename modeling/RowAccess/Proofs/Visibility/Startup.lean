import RowAccess.Proofs.Schema.Declaration
import RowAccess.Proofs.Visibility.Outcomes
import RowAccess.Query.Typing

/-!
# What the check of a schema leaves to requests

A registry is checked once, before it serves requests, and each request checks again what it reads.
In a registry that was handed out these later checks cannot fail for the schema's sake: a request is
denied because of the requester or of what it asks for, never because a model does not fit its tier.

Paths are followed through relations at two places, where the kind of a filter key is looked up and
where a condition is evaluated. Both end without a result if a relation has no target, or a target
that nobody knows. To tell these dead ends from the other ways to find nothing, the two walks are
written once more with marks: `Registry.markedKind?` and `Store.markedValues` carry an error where
the walk meets a dead end. In a consistent registry they carry none, whatever the path is.
-/

namespace RowAccess

/-- Why a path cannot be followed through a relation. -/
inductive DeadEnd where
  | missingTarget (model : ModelKey) (field : String)
  | unknownTarget (target : ModelKey)
  deriving DecidableEq, Repr

namespace Registry

/-- The kind that a path leads to, as `kindAlong?` finds it, or the dead end at a relation. -/
def markedKind? (r : Registry) (m : Model) :
    (segments : List String) → Option (Except DeadEnd FieldKind)
  | first :: next :: rest =>
    match m.field? first with
    | none => none
    | some spec =>
      match spec.target with
      | none => if spec.kind.isRelation then some (.error (.missingTarget m.key first)) else none
      | some target =>
        if spec.kind.isRelation && !r.isIdentity target && !r.contains target then
          some (.error (.unknownTarget target))
        else
          match r.searchable? target next with
          | none => none
          | some found =>
            if found.kind.isRelation then
              match r.get? target with
              | some m' => r.markedKind? m' (next :: rest)
              | none => some (.error (.unknownTarget target))
            else some (.ok found.kind)
  | _ => none

/-- Every relation leads to the identity model or to a registered one. -/
def Linked (r : Registry) (m : Model) : Prop :=
  ∀ name spec, m.field? name = some spec → spec.kind.isRelation = true →
    ∃ target, spec.target = some target ∧ (r.isIdentity target = true ∨ r.contains target = true)

variable {r : Registry} {m : Model}

theorem contains_iff_exists {key : ModelKey} :
    r.contains key = true ↔ ∃ m, r.get? key = some m := by
  rw [contains, Option.isSome_iff_exists]

theorem Accepts.linked (h : r.Accepts m) : r.Linked m := by
  intro name spec hfield hrelation
  have hentry : (name, spec) ∈ m.fields.entries := (lookup_eq_some_iff_mem m.fields.nodup).mp hfield
  have hcheck := h.fields _ hentry
  rw [checkField, if_pos hrelation] at hcheck
  cases htarget : spec.target with
  | none =>
    rw [htarget] at hcheck
    exact nomatch hcheck
  | some target =>
    rw [htarget] at hcheck
    dsimp only at hcheck
    rw [Outcome.ite_ok_iff, Bool.or_eq_true] at hcheck
    exact ⟨target, rfl, hcheck.symm⟩

theorem exists_field?_of_searchable? {key : ModelKey} {field : String} {spec : FieldSpec}
    (h : r.searchable? key field = some spec) (hrelation : spec.kind.isRelation = true) :
    ∃ m, r.get? key = some m ∧ m.field? field = some spec := by
  rw [searchable?] at h
  split at h
  · split at h
    · rw [← Option.some.inj h] at hrelation
      exact absurd hrelation (by decide)
    · exact nomatch h
  · exact Option.bind_eq_some_iff.mp h

/-- In a registry of linked models, no path meets a dead end on the way to its kind. -/
theorem markedKind?_eq (hlinked : ∀ m ∈ r.models, r.Linked m) (hm : m ∈ r.models)
    (segments : List String) : r.markedKind? m segments = (r.kindAlong? m segments).map .ok := by
  induction segments generalizing m with
  | nil => rfl
  | cons first rest ih =>
    cases rest with
    | nil => rfl
    | cons next rest =>
      rw [markedKind?, kindAlong?]
      cases hfield : m.field? first with
      | none => rfl
      | some spec =>
        -- Only a relation is asked for its target: other fields may have none.
        have htarget := hlinked m hm first spec hfield
        cases hspec : spec.target with
        | none =>
          have hplain : spec.kind.isRelation = false := by
            refine Bool.eq_false_iff.mpr fun hrelation ↦ ?_
            obtain ⟨target, hsome, -⟩ := htarget hrelation
            exact nomatch hspec.symm.trans hsome
          simp [hspec, hplain]
        | some target =>
          have hknown : (spec.kind.isRelation && !r.isIdentity target && !r.contains target)
              = false := by
            cases hrelation : spec.kind.isRelation with
            | false => rfl
            | true =>
              obtain ⟨target', hsome, hor⟩ := htarget hrelation
              rw [Option.some.inj (hspec.symm.trans hsome)]
              rcases hor with h | h <;> simp [h]
          cases hfound : r.searchable? target next with
          | none => simp [hspec, hknown, hfound]
          | some found =>
            cases hrelation : found.kind.isRelation with
            | false => simp [hspec, hknown, hfound, hrelation]
            | true =>
              obtain ⟨m', hm', -⟩ := exists_field?_of_searchable? hfound hrelation
              have hnext := ih ((r.get?_eq_some_iff _ _).mp hm').1
              simpa [hspec, hknown, hfound, hrelation, hm'] using hnext

end Registry

namespace Store

/-- The values that a path reaches, as `reached` collects them, with the dead ends among them. -/
def markedValues (s : Store) (m : Model) (row : Row) (choices : List (String × Choice)) :
    (segments : List String) → List (Except DeadEnd Json)
  | [] => []
  | first :: rest =>
    let stored := row.valueOf first
    match (m.field? first).filter fun spec ↦ spec.kind.isRelation with
    | none => if rest.isEmpty then [.ok stored] else []
    | some spec =>
      let ids := idsUnder spec.kind (choices.lookup first) stored
      if rest.isEmpty then ids.map .ok
      else
        match spec.target with
        | none => [.error (.missingTarget m.key first)]
        | some target =>
          if s.registry.isIdentity target then (if rest = ["id"] then ids.map .ok else [])
          else
            match s.registry.get? target, s.table? target with
            | some m', some t =>
              ids.flatMap fun id ↦
                match id.asInt64?.bind t.get? with
                | some row' => s.markedValues m' row' [] rest
                | none => []
            | _, _ => [.error (.unknownTarget target)]

variable {s : Store} {m : Model}

/-- In a registry of linked models, no path meets a dead end on the way to its values. -/
theorem markedValues_eq (hlinked : ∀ m ∈ s.registry.models, s.registry.Linked m)
    (hm : m ∈ s.registry.models) (row : Row) (choices : List (String × Choice))
    (segments : List String) :
    s.markedValues m row choices segments = (s.reached m row choices segments).map .ok := by
  induction segments generalizing m row choices with
  | nil => rfl
  | cons first rest ih =>
    rw [markedValues, reached]
    cases hrelation : (m.field? first).filter fun spec ↦ spec.kind.isRelation with
    | none => cases rest <;> rfl
    | some spec =>
      obtain ⟨hfield, hkind⟩ := Option.filter_eq_some_iff.mp hrelation
      obtain ⟨target, htarget, hor⟩ := hlinked m hm first spec hfield hkind
      dsimp only
      cases rest with
      | nil => rfl
      | cons next rest =>
        simp only [htarget, List.isEmpty_cons, Bool.false_eq_true, if_false]
        by_cases hidentity : s.registry.isIdentity target = true
        · rw [if_pos hidentity, if_pos hidentity]
          by_cases hid : next :: rest = ["id"]
          · simp [hid]
          · simp [hid]
        · -- Another target is registered, so it has a model and a table.
          have hknown := hor.resolve_left hidentity
          obtain ⟨m', hm'⟩ := Registry.contains_iff_exists.mp hknown
          obtain ⟨t, ht⟩ := Option.isSome_iff_exists.mp ((s.isSome_table? target).trans hknown)
          rw [if_neg hidentity, if_neg hidentity, hm', ht]
          dsimp only
          rw [List.map_flatMap]
          refine congrArg (List.flatMap · _) (funext fun id ↦ ?_)
          cases id.asInt64?.bind t.get? with
          | none => rfl
          | some row' => exact ih ((s.registry.get?_eq_some_iff _ _).mp hm').1 row' []

end Store

/-! ## Requests in a consistent registry -/

namespace Registry

/-- In a registry that was handed out, every model declares the managed fields and fits its tier,
and its relations lead to models that are known. So a request is denied only for want of a user or
of a project, the project model that a tier reads is found, and no path meets a dead end: neither on
the way to its kind nor, in any store of the registry, on the way to its values. -/
theorem never_fails_for_the_schema (d : SchemaDeclaration) (r : Registry)
    (h : ofDeclaration d = .ok r) (m : Model) (hm : m ∈ r.models) :
    (∀ identity p denial, r.visibleRows m identity p = .error denial →
      denial = .authenticationRequired ∨ denial = .projectSelectorRequired) ∧
    r.checkTier m = .ok () ∧
    (m.tier.needsProject = true → ∃ project, ∀ code, r.requireProject m code = .ok project) ∧
    m.DeclaresManaged ∧
    r.Linked m ∧
    (∀ segments, r.markedKind? m segments = (r.kindAlong? m segments).map .ok) ∧
    ∀ s : Store, s.registry = r → ∀ row choices segments,
      s.markedValues m row choices segments = (s.reached m row choices segments).map .ok := by
  have haccepts := validate_eq_ok_iff.mp (ofDeclaration_eq_ok_iff.mp h).2
  have hlinked : ∀ m ∈ r.models, r.Linked m := fun m hm ↦ (haccepts m hm).linked
  refine ⟨fun identity p denial hdenied ↦ ?_, (haccepts m hm).tier, fun htier ↦ ?_,
    declaresManaged_of_ofDeclaration h hm, hlinked m hm, markedKind?_eq hlinked hm, ?_⟩
  · have houtcome := (haccepts m hm).isOutcome identity p
    rw [hdenied] at houtcome
    cases houtcome with
    | unknownRequester => exact .inl rfl
    | noProject => exact .inr rfl
  · obtain ⟨project, hproject, -⟩ := (haccepts m hm).project htier
    exact ⟨project, fun code ↦ by rw [requireProject, hproject]⟩
  · rintro s rfl row choices segments
    exact Store.markedValues_eq hlinked hm row choices segments

end Registry

/-! ## A declaration of notes -/

namespace Notes

/-- The declaration of the sample service. The notes stand before the projects that they need. -/
def declaration : SchemaDeclaration where
  apps := [{
    name := "core"
    models := [
      { name := "note"
        tier := some "project_or_user"
        fields := .ofList [
          ("owner", .detailed .foreignKey (some "auth.user")),
          ("project", .detailed .foreignKey (some "project"))]
        ownerField := some "owner" },
      { name := "project"
        tier := some "logged_in"
        fields := .ofList [("members", .detailed .manyToMany (some "auth.user"))]
        userFields := ["members"] }] }]

/-- The notes are declared for a tier that reads their projects. No request on them fails for the
schema's sake. -/
theorem notes_never_fail_for_the_schema :
    ∃ r m, Registry.ofDeclaration declaration = .ok r ∧ r.get? ⟨"core", "note"⟩ = some m ∧
      m.tier = .projectOrUser ∧
      (∀ identity p denial, r.visibleRows m identity p = .error denial →
        denial = .authenticationRequired ∨ denial = .projectSelectorRequired) ∧
      (∃ project, ∀ code, r.requireProject m code = .ok project) ∧
      ∀ segments, r.markedKind? m segments = (r.kindAlong? m segments).map .ok := by
  have hnote : ((Registry.ofDeclaration declaration).toOption.bind fun r ↦
      (r.get? ⟨"core", "note"⟩).map Model.tier) = some .projectOrUser := by
    decide +kernel
  obtain ⟨r, hr, hget⟩ := Option.bind_eq_some_iff.mp hnote
  obtain ⟨m, hm, htier⟩ := Option.map_eq_some_iff.mp hget
  have hdeclared : Registry.ofDeclaration declaration = .ok r := by
    obtain ⟨r', hr', rfl⟩ := Outcome.toOption_map_eq_some_iff (f := id).mp (by simpa using hr)
    exact hr'
  obtain ⟨hdenied, -, hproject, -, -, hkind, -⟩ := Registry.never_fails_for_the_schema declaration r
    hdeclared m ((r.get?_eq_some_iff _ _).mp hm).1
  exact ⟨r, m, hdeclared, hm, htier, hdenied, hproject (by rw [htier]; rfl), hkind⟩

end Notes

end RowAccess

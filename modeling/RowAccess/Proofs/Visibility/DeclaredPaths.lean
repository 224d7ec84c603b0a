import RowAccess.Proofs.Visibility.Outcomes

/-!
# Paths of a visibility

The conditions of a visibility compare fields, which a model addresses by paths: a field of its own,
or a relation and behind it a relation of the model it leads to. A schema is checked for the names
that such paths are made of, but not for the paths. Two things can go wrong. The members of projects
are named by the fields of the project model, while the rows are reached through the relation
`project`, and nothing ties the target of that relation to the project model. And a name with a
doubled underscore is one field of a model, but two segments of a path.

Both are told apart exactly: every path of every visibility is declared if and only if the owner
field is, and the names of the members are fields of the model that `project` leads to.
-/

namespace RowAccess

namespace Registry

/-- The registered model that a relation of a model leads to. -/
def related? (r : Registry) (m : Model) (relation : String) : Option Model := do
  r.get? (← (← m.field? relation).target)

/-- A path names a field of the model, or a relation of it and a relation of the model that this
one leads to. -/
def DeclaresPath (r : Registry) (m : Model) (path : String) : Prop :=
  match pathSegments path with
  | [name] => m.hasField name = true
  | [relation, name] =>
    m.hasRelation relation = true ∧
      ∃ target, r.related? m relation = some target ∧ target.hasRelation name = true
  | _ => False

variable {r : Registry} {m : Model}

theorem declaresPath_iff_hasField {name : String} (h : IsSegment name) :
    r.DeclaresPath m name ↔ m.hasField name = true := by
  rw [DeclaresPath, pathSegments_eq_singleton h]

/-- The path to a member is declared if its name is a relation of the model behind `project`. -/
theorem declaresPath_member_iff (h : m.hasRelation "project" = true) {field : String} :
    r.DeclaresPath m (joinPath ["project", field]) ↔
      IsSegment field ∧
        ∃ target, r.related? m "project" = some target ∧ target.hasRelation field = true := by
  rw [DeclaresPath, pathSegments_joinPath isSegment_project (by decide)]
  constructor
  · intro hdeclared
    -- The root of the field is all of it, or the path would have a third segment.
    obtain ⟨rest, hrest⟩ := pathSegments_eq_cons field
    rw [hrest] at hdeclared
    cases rest with
    | nil =>
      have hsegment := isSegment_of_pathSegments hrest
      rw [pathSegments_eq_singleton hsegment] at hrest
      rw [← (List.cons.inj hrest).1] at hdeclared
      exact ⟨hsegment, hdeclared.2⟩
    | cons next rest => exact absurd hdeclared id
  · rintro ⟨hsegment, htarget⟩
    rw [pathSegments_eq_singleton hsegment]
    exact ⟨h, htarget⟩

theorem declaresPath_public (h : m.hasFlag "public" = true) : r.DeclaresPath m "public" := by
  have hsegment : IsSegment "public" := by
    rw [IsSegment]
    decide +kernel
  rw [declaresPath_iff_hasField hsegment, Model.hasField, Ordered.contains]
  obtain ⟨spec, hfield, -⟩ := Model.hasFlag_iff.mp h
  exact Option.isSome_of_eq_some hfield

/-- The paths of all grounds are declared as soon as those of the owner and of the members are. -/
theorem Accepts.declaresGrounds_iff (h : r.Accepts m) :
    (∀ c, r.IsGround m c → r.DeclaresPath m c.path) ↔
      (m.tier.readsOwner = true → r.DeclaresPath m m.ownerField) ∧
      (m.tier.needsProject = true → ∀ project, r.get? m.projectKey = some project →
        ∀ field ∈ project.userFields, IsSegment field ∧
          ∃ target, r.related? m "project" = some target ∧ target.hasRelation field = true) := by
  constructor
  · intro hgrounds
    refine ⟨fun htier ↦ hgrounds _ (.owned htier 0), fun htier project hproject field hfield ↦ ?_⟩
    exact (declaresPath_member_iff (h.hasRelation htier)).mp
      (hgrounds _ (.member htier hproject hfield 0))
  · rintro ⟨howner, hmembers⟩ c hc
    cases hc with
    | isPublic htier => exact declaresPath_public (h.hasFlag htier)
    | owned htier user => exact howner htier
    | member htier hproject hfield user =>
      exact (declaresPath_member_iff (h.hasRelation htier)).mpr
        (hmembers htier _ hproject _ hfield)

/-- A model that declares what its tier reads in a form that a predicate can address declares every
path of its grounds. -/
theorem SuitsTier.declaresGrounds (hsuits : r.SuitsTier m) (hvalid : r.validate = .ok ())
    (hm : m ∈ r.models) {c : Condition} (hc : r.IsGround m c) : r.DeclaresPath m c.path := by
  have haccepts := validate_eq_ok_iff.mp hvalid
  refine (haccepts m hm).declaresGrounds_iff.mpr ⟨fun htier ↦ ?_, fun htier project hproject ↦ ?_⟩
    c hc
  · exact (declaresPath_iff_hasField (hsuits.owner htier).2).mpr ((haccepts m hm).owner htier)
  · intro field hfield
    have hproject' := (r.get?_eq_some_iff _ _).mp hproject
    have hrelated : r.related? m "project" = some project := by
      obtain ⟨spec, hspec, htarget⟩ := Option.bind_eq_some_iff.mp (hsuits.project htier).1
      rw [related?, hspec]
      simp only [Option.bind_eq_bind, Option.bind_some, htarget, hproject]
    exact ⟨hsuits.users htier project hproject field hfield, project, hrelated,
      (haccepts project hproject'.1).users field hfield⟩

/-- In a consistent registry, the conditions of the visibilities of a model name declared paths if
and only if the owner field is a declared path, as far as the tier reads it, and all fields that
name the members of projects are relations of the model that `project` leads to. -/
theorem visibleRows_declaresPaths_iff (r : Registry) (hvalid : r.validate = .ok ()) (m : Model)
    (hm : m ∈ r.models) :
    (∀ identity pairs visibility, r.visibleRows m identity (.ofPairs pairs) = .ok visibility →
      ∀ c ∈ visibility.conditions, r.DeclaresPath m c.path) ↔
    (m.tier.readsOwner = true → r.DeclaresPath m m.ownerField) ∧
      (m.tier.needsProject = true → ∀ project, r.get? m.projectKey = some project →
        ∀ field ∈ project.userFields, IsSegment field ∧
          ∃ target, r.related? m "project" = some target ∧ target.hasRelation field = true) := by
  have haccepts := validate_eq_ok_iff.mp hvalid m hm
  rw [← haccepts.declaresGrounds_iff]
  constructor
  · intro hpaths c hc
    obtain ⟨identity, pairs, visibility, hvisible, hmem⟩ := haccepts.exists_visibility hc
    exact hpaths identity pairs visibility hvisible c hmem
  · intro hgrounds identity pairs visibility hvisible c hmem
    have houtcome := haccepts.isOutcome identity (.ofPairs pairs)
    rw [hvisible] at houtcome
    cases houtcome with
    | visible grounds => exact hgrounds c (grounds c hmem)

end Registry

/-! ## Notes in projects and in folders -/

namespace Notes

/-- The sample notes lie in the projects that their members belong to: what a member is shown is
told by declared paths. -/
theorem notes_declare_paths :
    ∃ visibility, registry.visibleRows note (Registry.plainUser 7) (.ofPairs Registry.selecting)
        = .ok visibility ∧
      visibility.conditions = [⟨"owner", .exact, .int 7⟩, ⟨"project__members", .exact, .int 7⟩] ∧
      ∀ c ∈ visibility.conditions, registry.DeclaresPath note c.path := by
  have hnote : note ∈ registry.models := by simp [registry]
  have haccepts := Registry.validate_eq_ok_iff.mp validate_registry note hnote
  have hpaths := (registry.visibleRows_declaresPaths_iff validate_registry note hnote).mpr
    (haccepts.declaresGrounds_iff.mp fun _ ↦
      suitsTier_note.declaresGrounds validate_registry hnote)
  have hvisible : registry.visibleRows note (Registry.plainUser 7) (.ofPairs Registry.selecting)
      = .ok (.mkAny [ownedRows note 7, memberRows project 7]) := rfl
  exact ⟨_, hvisible, rfl, hpaths _ _ _ hvisible⟩

/-- A folder has no members. -/
def folder : Model where
  key := ⟨"core", "folder"⟩
  tier := .public

/-- A note whose relation `project` leads to folders. -/
def filedNote : Model where
  key := ⟨"core", "note"⟩
  tier := .project
  fields := implicitFields.insert "project" ⟨.foreignKey, some folder.key⟩

def filedRegistry : Registry where
  settings := {}
  identityModel := ⟨"auth", "user"⟩
  models := [project, folder, filedNote]
  distinct := by decide

/-- The registry is consistent, yet a member of a project is shown the notes whose folder names them
in a field that no folder has. -/
theorem filedNotes_stray :
    filedRegistry.validate = .ok () ∧ filedNote ∈ filedRegistry.models ∧
      ∃ visibility, filedRegistry.visibleRows filedNote (Registry.plainUser 7)
          (.ofPairs Registry.selecting) = .ok visibility ∧
        visibility.conditions = [⟨"project__members", .exact, .int 7⟩] ∧
        ¬filedRegistry.DeclaresPath filedNote "project__members" := by
  have hrelation : filedNote.hasRelation "project" = true := by decide +kernel
  refine ⟨rfl, by simp [filedRegistry], memberRows project 7, rfl, rfl, ?_⟩
  intro hdeclared
  obtain ⟨-, target, htarget, hmembers⟩ :=
    (@Registry.declaresPath_member_iff filedRegistry filedNote hrelation "members").mp hdeclared
  have hfolder : filedRegistry.related? filedNote "project" = some folder := rfl
  rw [← Option.some.inj (hfolder.symm.trans htarget)] at hmembers
  exact absurd hmembers (by decide +kernel)

end Notes

end RowAccess

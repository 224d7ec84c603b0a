import RowAccess.Proofs.Outcome
import RowAccess.Schema.Validation

/-!
# What a consistent schema promises

The checks of a model are carried out one after the other and report the first fault. Here they are
read as one statement about the model, `Registry.Accepts`, which is all that later arguments use of
them: a registry passes its validation if and only if it accepts every one of its models.
-/

namespace RowAccess

namespace Registry

/-- Whatever is checked about a model holds of it. -/
structure Accepts (r : Registry) (m : Model) : Prop where
  fields : ∀ entry ∈ m.fields.entries, r.checkField m.key.render entry.1 entry.2 = .ok ()
  required : ∀ name ∈ m.requiredFields, m.hasField name = true
  shown : ∀ name ∈ m.shownFields.getD [], m.hasField name = true
  users : ∀ name ∈ m.userFields, m.hasRelation name = true
  owner : m.tier.readsOwner = true → m.hasField m.ownerField = true
  tier : r.checkTier m = .ok ()
  project : m.tier.needsProject = true →
    ∃ project, r.get? m.projectKey = some project ∧ project.userFields ≠ []

theorem checkNames_eq_ok_iff {model context : String} {known : String → Bool}
    {names : List String} :
    checkNames model context known names = .ok () ↔ ∀ name ∈ names, known name = true := by
  rw [checkNames]
  split
  · rename_i name h
    have hunknown := List.find?_some h
    refine ⟨nofun, fun hall ↦ ?_⟩
    rw [hall name (List.mem_of_find?_eq_some h)] at hunknown
    exact absurd hunknown (by decide)
  · rename_i h
    rw [List.find?_eq_none] at h
    exact ⟨fun _ name hname ↦ by simpa using h name hname, fun _ ↦ rfl⟩

theorem checkProject_eq_ok_iff {r : Registry} {m : Model} :
    r.checkProject m = .ok () ↔ (m.tier.needsProject = true →
      ∃ project, r.get? m.projectKey = some project ∧ project.userFields ≠ []) := by
  rw [checkProject]
  cases m.tier.needsProject with
  | false => simp
  | true =>
    cases r.get? m.projectKey with
    | none => simp
    | some project => cases h : project.userFields <;> simp [h]

theorem checkModel_eq_ok_iff {r : Registry} {m : Model} :
    r.checkModel m = .ok () ↔ r.Accepts m := by
  rw [checkModel]
  simp only [Outcome.check_bind_eq_ok_iff, Outcome.ite_check_bind_eq_ok_iff,
    Outcome.forM_eq_ok_iff, Outcome.mapError_eq_ok_iff, checkNames_eq_ok_iff,
    checkProject_eq_ok_iff, List.forall_mem_singleton]
  constructor
  · rintro ⟨hfields, hrequired, hshown, husers, howner, htier, hproject⟩
    exact ⟨hfields, hrequired, hshown, husers, howner, htier, hproject⟩
  · intro h
    exact ⟨h.fields, h.required, h.shown, h.users, h.owner, h.tier, h.project⟩

theorem validate_eq_ok_iff {r : Registry} :
    r.validate = .ok () ↔ ∀ m ∈ r.models, r.Accepts m := by
  rw [validate, Outcome.forM_eq_ok_iff]
  simp only [checkModel_eq_ok_iff]

end Registry

end RowAccess

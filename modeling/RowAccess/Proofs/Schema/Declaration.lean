import RowAccess.Audit
import RowAccess.Proofs.Schema.Validity
import RowAccess.Schema.Declaration

/-!
# From declarations to registries

A registry is filled with the models that its declaration describes, one after the other, and is
handed out only after its models were checked against each other. A declared field may replace a
field that every model has, but none of these gets lost: every model declares all the fields that
the service manages.
-/

namespace RowAccess

/-- A model declares every field that the service manages: the id and the audit fields. -/
def Model.DeclaresManaged (m : Model) : Prop := ∀ name ∈ managedFields, m.hasField name = true

theorem Ordered.contains_insertAll {α : Type} (entries : List (String × α)) {fields : Ordered α}
    {name : String} (h : fields.contains name = true) :
    (fields.insertAll entries).contains name = true := by
  induction entries generalizing fields with
  | nil => exact h
  | cons entry rest ih =>
    have hfirst : (fields.insert entry.1 entry.2).contains name = true := by
      rw [contains, get?_insert]
      split
      · rfl
      · exact h
    exact ih hfirst

theorem ModelDeclaration.declaresManaged_of_toModel {d : ModelDeclaration} {app : String}
    {m : Model} (h : d.toModel app = .ok m) : m.DeclaresManaged := by
  rw [toModel] at h
  obtain ⟨tier, -, h⟩ := Outcome.bind_eq_ok_iff.mp h
  obtain ⟨specs, -, h⟩ := Outcome.bind_eq_ok_iff.mp h
  rw [← Outcome.pure_eq_ok_iff.mp h]
  intro name hname
  refine Ordered.contains_insertAll specs ?_
  have himplicit : ∀ name ∈ managedFields, implicitFields.contains name = true := by
    decide +kernel
  exact himplicit name hname

namespace Registry

theorem models_of_register {r r' : Registry} {m : Model} (h : r.register m = .ok r') :
    r'.models = r.models ++ [m] := by
  rw [register] at h
  split at h
  · exact nomatch h
  · exact Except.ok.inj h ▸ rfl

/-- Every model of a declared registry is described by one of the declarations. -/
theorem exists_toModel_of_toRegistry {d : SchemaDeclaration} {r : Registry}
    (h : d.toRegistry = .ok r) {m : Model} (hm : m ∈ r.models) :
    ∃ app model, ModelDeclaration.toModel model app = .ok m := by
  rw [SchemaDeclaration.toRegistry] at h
  obtain ⟨empty, hempty, h⟩ := Outcome.bind_eq_ok_iff.mp h
  have hnone : empty.models = [] := by
    rw [new] at hempty
    obtain ⟨identityModel, -, hempty⟩ := Outcome.bind_eq_ok_iff.mp hempty
    rw [← Outcome.pure_eq_ok_iff.mp hempty]
  -- Every model that was registered so far has its declaration.
  refine Outcome.foldlM_invariant
    (P := fun r ↦ ∀ m ∈ r.models, ∃ app model, ModelDeclaration.toModel model app = .ok m)
    h ?_ ?_ m hm
  · intro m hm
    rw [hnone] at hm
    exact absurd hm List.not_mem_nil
  · rintro r ⟨app, model⟩ r' - hr hstep m hm
    obtain ⟨added, hadded, hregister⟩ := Outcome.bind_eq_ok_iff.mp hstep
    rw [models_of_register hregister, List.mem_append, List.mem_singleton] at hm
    rcases hm with hm | rfl
    · exact hr m hm
    · exact ⟨app, model, hadded⟩

/-- A registry that is handed out holds the declared models and is consistent. -/
theorem ofDeclaration_eq_ok_iff {d : SchemaDeclaration} {r : Registry} :
    ofDeclaration d = .ok r ↔ d.toRegistry = .ok r ∧ r.validate = .ok () := by
  rw [ofDeclaration, Outcome.bind_eq_ok_iff]
  simp only [Outcome.check_bind_eq_ok_iff, Outcome.pure_eq_ok_iff]
  constructor
  · rintro ⟨r', hr, hvalid, rfl⟩
    exact ⟨hr, hvalid⟩
  · rintro ⟨hr, hvalid⟩
    exact ⟨r, hr, hvalid, rfl⟩

theorem declaresManaged_of_ofDeclaration {d : SchemaDeclaration} {r : Registry}
    (h : ofDeclaration d = .ok r) {m : Model} (hm : m ∈ r.models) : m.DeclaresManaged := by
  obtain ⟨app, model, hmodel⟩ := exists_toModel_of_toRegistry (ofDeclaration_eq_ok_iff.mp h).1 hm
  exact model.declaresManaged_of_toModel hmodel

end Registry

end RowAccess

import RowAccess.Proofs.Evaluation.Choices

/-!
# What an evaluation reads

From a row at hand, an evaluation follows relation fields from model to model, and looks only into
the tables of the models that it comes to. So two stores in which all of these tables are the same
agree on every predicate, whatever the table of the row's own model holds: as long as no chain of
relation fields leads back to that model, an evaluation never sees the other rows of it.
-/

namespace RowAccess

/-- A relation field of a model points at a registered model. -/
def Registry.LinksTo (r : Registry) (m other : Model) : Prop :=
  ∃ name spec target, m.field? name = some spec ∧ spec.kind.isRelation = true ∧
    spec.target = some target ∧ r.get? target = some other

namespace Store

/-- Two stores have the same tables for all models that chains of relation fields of a model lead
to. -/
structure AgreesBeyond (s s' : Store) (m : Model) : Prop where
  registry : s'.registry = s.registry
  tables : ∀ other, Relation.TransGen s.registry.LinksTo m other →
    s'.table? other.key = s.table? other.key

variable {s s' : Store} {m : Model}

theorem AgreesBeyond.of_linksTo (h : s.AgreesBeyond s' m) {other : Model}
    (hlink : s.registry.LinksTo m other) : s.AgreesBeyond s' other where
  registry := h.registry
  tables _ hchain := h.tables _ (.trans (.single hlink) hchain)

namespace AgreesBeyond

/-- A path reaches the same values in both stores. -/
theorem reached_eq (h : s.AgreesBeyond s' m) (row : Row) (choices : List (String × Choice))
    (segments : List String) :
    s'.reached m row choices segments = s.reached m row choices segments := by
  induction segments generalizing m row choices with
  | nil => rw [reached, reached]
  | cons name rest ih =>
    cases hrelation : m.hasRelation name with
    | false => rw [reached_plain _ _ _ hrelation, reached_plain _ _ _ hrelation]
    | true =>
      obtain ⟨spec, hfield, hkind⟩ := Model.hasRelation_iff.mp hrelation
      have hvia : s'.reachedVia spec rest = s.reachedVia spec rest := by
        funext id
        rw [reachedVia, reachedVia, h.registry]
        cases htarget : spec.target with
        | none => rfl
        | some target =>
          cases hother : s.registry.get? target with
          | none => simp only [hother]
          | some other =>
            have hlink : s.registry.LinksTo m other :=
              ⟨name, spec, target, hfield, hkind, htarget, hother⟩
            have hkey := ((s.registry.get?_eq_some_iff target other).mp hother).2
            have htable := h.tables other (.single hlink)
            rw [hkey] at htable
            simp only [hother, htable]
            cases s.table? target with
            | none => rfl
            | some t => simp only [ih (h.of_linksTo hlink)]
      rw [reached_relation _ _ _ hfield hkind, reached_relation _ _ _ hfield hkind, hvia]

theorem satisfies_eq (h : s.AgreesBeyond s' m) (row : Row) (choices : List (String × Choice))
    (p : Predicate) : s'.satisfies m row choices p = s.satisfies m row choices p := by
  induction p using Predicate.treeInduction generalizing choices with
  | always => rw [satisfies_always, satisfies_always]
  | leaf c => rw [satisfies_leaf, satisfies_leaf, meets, meets, h.reached_eq]
  | all parts ih =>
    rw [satisfies_all, satisfies_all, Bool.eq_iff_iff, List.all_eq_true, List.all_eq_true]
    exact forall₂_congr fun part hpart ↦ by rw [ih part hpart]
  | any parts ih =>
    rw [satisfies_any, satisfies_any, Bool.eq_iff_iff, List.any_eq_true, List.any_eq_true]
    exact exists_congr fun part ↦ and_congr_right fun hpart ↦ by rw [ih part hpart]
  | not part ih => rw [satisfies_not, satisfies_not, ih]

theorem holds_eq (h : s.AgreesBeyond s' m) (row : Row) (p : Predicate) :
    s'.holds m row p = s.holds m row p := by
  rw [Bool.eq_iff_iff, holds_iff, holds_iff]
  simp only [h.satisfies_eq]

theorem keeps_eq (h : s.AgreesBeyond s' m) (row : Row) (step : Step) :
    s'.keeps m row step = s.keeps m row step := by
  cases step with
  | «include» p => exact h.holds_eq row p
  | exclude p => exact congrArg (!·) (h.holds_eq row p)

end AgreesBeyond

/-- Stores that differ in the table of one model only agree beyond it, if no chain of relation
fields leads back to it. -/
theorem agreesBeyond_of_tables (hregistry : s'.registry = s.registry)
    (hchain : ¬Relation.TransGen s.registry.LinksTo m m)
    (hm : s.registry.get? m.key = some m)
    (htables : ∀ key, key ≠ m.key → s'.table? key = s.table? key) : s.AgreesBeyond s' m where
  registry := hregistry
  tables other hother := by
    refine htables other.key fun hkey ↦ hchain ?_
    have hregistered : s.registry.get? other.key = some other := by
      cases hother <;> rename_i hlink <;>
        obtain ⟨_, _, target, -, -, -, htarget⟩ := hlink <;>
        exact ((s.registry.get?_eq_some_iff target other).mp htarget).2 ▸ htarget
    rw [hkey, hm] at hregistered
    exact Option.some.inj hregistered ▸ hother

end Store

end RowAccess

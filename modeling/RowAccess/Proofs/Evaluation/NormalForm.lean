import RowAccess.Proofs.Evaluation.Related
import RowAccess.Query.Plan

/-!
# What the constructors of predicates keep

A conjunction or a disjunction that is built merges the parts that are one of its own kind, drops or
spreads trivial parts, and is replaced by its part where only one is left. None of this is seen by
evaluation (`holds_mkAll_eq`, `holds_mkAny_eq`). That is not the law of a Boolean algebra only:
which related rows are shared depends on all the conditions of a step, and a disjunction with a
trivial part loses its conditions. Merging keeps the conditions in their order and so the relations
that are joined; and where conditions are lost, what is left holds of every row, as the disjunction
did, because every relation offers some choice.

Parts are merged one level at a time. That is enough for the trees that are built from single
conditions: they are normal (`Built.isNormal`), since the parts of a normal conjunction are neither
trivial nor conjunctions. So the trivial predicate can be told from the others by its form: a
conjunction of such trees is the trivial predicate exactly if each of its parts is.
-/

namespace RowAccess

namespace Predicate

/-! ## Normal trees -/

/-- A predicate is kept as it is by a conjunction that has it as a part. -/
def IsConjunct (p : Predicate) : Prop := p ≠ .always ∧ ∀ parts, p ≠ .all parts

/-- A predicate is kept as it is by a disjunction that has it as a part. -/
def IsDisjunct (p : Predicate) : Prop := p ≠ .always ∧ ∀ parts, p ≠ .any parts

/-- Nothing in a tree can be merged or dropped. A conjunction has at least two parts, and a
disjunction does not have a single one; without parts, it is the predicate that holds of no row. -/
inductive IsNormal : Predicate → Prop where
  | always : IsNormal .always
  | leaf (c : Condition) : IsNormal (.leaf c)
  | all {parts : List Predicate} (hlength : 2 ≤ parts.length)
    (hmerged : ∀ part ∈ parts, part.IsConjunct) (hparts : ∀ part ∈ parts, IsNormal part) :
    IsNormal (.all parts)
  | any {parts : List Predicate} (hlength : parts.length ≠ 1)
    (hmerged : ∀ part ∈ parts, part.IsDisjunct) (hparts : ∀ part ∈ parts, IsNormal part) :
    IsNormal (.any parts)
  | not {part : Predicate} (hpart : IsNormal part) : IsNormal (.not part)

/-- A tree is built from conditions and the trivial predicate by the constructors that merge. -/
inductive Built : Predicate → Prop where
  | always : Built .always
  | leaf (c : Condition) : Built (.leaf c)
  | mkAll {parts : List Predicate} (hparts : ∀ part ∈ parts, Built part) : Built (mkAll parts)
  | mkAny {parts : List Predicate} (hparts : ∀ part ∈ parts, Built part) : Built (mkAny parts)
  | not {part : Predicate} (hpart : Built part) : Built (.not part)
  | and {p q : Predicate} (hp : Built p) (hq : Built q) : Built (p.and q)

theorem isAlways_iff {p : Predicate} : p.isAlways = true ↔ p = .always := by
  cases p <;> simp [isAlways]

/-- What a normal tree contributes to a conjunction is normal and is not merged any further. -/
theorem IsNormal.of_mem_conjuncts {p part : Predicate} (h : p.IsNormal)
    (hpart : part ∈ p.conjuncts) : part.IsConjunct ∧ part.IsNormal := by
  cases h with
  | always => exact absurd hpart List.not_mem_nil
  | leaf c => exact List.mem_singleton.mp hpart ▸ ⟨⟨nofun, nofun⟩, .leaf c⟩
  | all hlength hmerged hparts => exact ⟨hmerged part hpart, hparts part hpart⟩
  | any hlength hmerged hparts =>
    exact List.mem_singleton.mp hpart ▸ ⟨⟨nofun, nofun⟩, .any hlength hmerged hparts⟩
  | not hinner => exact List.mem_singleton.mp hpart ▸ ⟨⟨nofun, nofun⟩, .not hinner⟩

/-- What a normal tree contributes to a disjunction, unless it is trivial, is normal and is not
merged any further. -/
theorem IsNormal.of_mem_disjuncts {p part : Predicate} (h : p.IsNormal) (hp : p.isAlways = false)
    (hpart : part ∈ p.disjuncts) : part.IsDisjunct ∧ part.IsNormal := by
  cases h with
  | always => exact absurd hp (by decide)
  | leaf c => exact List.mem_singleton.mp hpart ▸ ⟨⟨nofun, nofun⟩, .leaf c⟩
  | all hlength hmerged hparts =>
    exact List.mem_singleton.mp hpart ▸ ⟨⟨nofun, nofun⟩, .all hlength hmerged hparts⟩
  | any hlength hmerged hparts => exact ⟨hmerged part hpart, hparts part hpart⟩
  | not hinner => exact List.mem_singleton.mp hpart ▸ ⟨⟨nofun, nofun⟩, .not hinner⟩

theorem IsNormal.conjuncts_eq_nil_iff {p : Predicate} (h : p.IsNormal) :
    p.conjuncts = [] ↔ p = .always := by
  cases h with
  | always => exact iff_of_true rfl rfl
  | leaf c => exact iff_of_false (List.cons_ne_nil _ _) Predicate.noConfusion
  | all hlength hmerged hparts =>
    refine iff_of_false (fun hnone ↦ ?_) Predicate.noConfusion
    rw [conjuncts] at hnone
    rw [hnone] at hlength
    exact absurd hlength (by decide)
  | any hlength hmerged hparts => exact iff_of_false (List.cons_ne_nil _ _) Predicate.noConfusion
  | not hinner => exact iff_of_false (List.cons_ne_nil _ _) Predicate.noConfusion

variable {parts : List Predicate}

theorem isNormal_mkAll (h : ∀ part ∈ parts, part.IsNormal) : (mkAll parts).IsNormal := by
  have hflat : ∀ part ∈ parts.flatMap conjuncts, part.IsConjunct ∧ part.IsNormal := by
    intro part hpart
    obtain ⟨source, hsource, hmem⟩ := List.mem_flatMap.mp hpart
    exact (h source hsource).of_mem_conjuncts hmem
  rw [mkAll]
  split
  · exact .always
  · rename_i part hone
    exact (hflat part (hone ▸ List.mem_cons_self)).2
  · rename_i hnone hsingle
    refine .all ?_ (fun part hpart ↦ (hflat part hpart).1) fun part hpart ↦ (hflat part hpart).2
    cases hparts : parts.flatMap conjuncts with
    | nil => exact absurd hparts hnone
    | cons first later =>
      cases later with
      | nil => exact absurd hparts (hsingle first)
      | cons second rest => exact Nat.le_add_left 2 rest.length

theorem isNormal_mkAny (h : ∀ part ∈ parts, part.IsNormal) : (mkAny parts).IsNormal := by
  rw [mkAny]
  split
  · exact .always
  · rename_i hrestricts
    have hflat : ∀ part ∈ parts.flatMap disjuncts, part.IsDisjunct ∧ part.IsNormal := by
      intro part hpart
      obtain ⟨source, hsource, hmem⟩ := List.mem_flatMap.mp hpart
      have hsourceRestricts : source.isAlways = false :=
        Bool.eq_false_iff.mpr fun htrivial ↦
          hrestricts (List.any_eq_true.mpr ⟨source, hsource, htrivial⟩)
      exact (h source hsource).of_mem_disjuncts hsourceRestricts hmem
    split
    · rename_i part hone
      exact (hflat part (hone ▸ List.mem_cons_self)).2
    · rename_i hsingle
      refine .any (fun hlength ↦ ?_) (fun part hpart ↦ (hflat part hpart).1)
        fun part hpart ↦ (hflat part hpart).2
      obtain ⟨part, hone⟩ := List.length_eq_one_iff.mp hlength
      exact hsingle part hone

/-- Whatever the order of construction, what is built is normal. -/
theorem Built.isNormal {p : Predicate} (h : p.Built) : p.IsNormal := by
  induction h with
  | always => exact .always
  | leaf c => exact .leaf c
  | mkAll _ ih => exact isNormal_mkAll ih
  | mkAny _ ih => exact isNormal_mkAny ih
  | not _ ih => exact .not ih
  | and _ _ ihp ihq =>
    exact isNormal_mkAll (List.forall_mem_cons.mpr ⟨ihp, List.forall_mem_singleton.mpr ihq⟩)

/-- A conjunction of normal trees is the trivial predicate exactly if all of them are. -/
theorem mkAll_eq_always_iff (h : ∀ part ∈ parts, part.IsNormal) :
    mkAll parts = .always ↔ ∀ part ∈ parts, part = .always := by
  have hnone : parts.flatMap conjuncts = [] ↔ ∀ part ∈ parts, part = .always := by
    rw [List.flatMap_eq_nil_iff]
    exact forall₂_congr fun part hpart ↦ (h part hpart).conjuncts_eq_nil_iff
  rw [← hnone, mkAll]
  split
  · rename_i hflat
    exact iff_of_true rfl hflat
  · rename_i part hone
    -- The one part that is left is no trivial one: those contribute nothing.
    obtain ⟨source, hsource, hmem⟩ := List.mem_flatMap.mp (hone ▸ List.mem_cons_self)
    exact iff_of_false ((h source hsource).of_mem_conjuncts hmem).1.1
      (hone ▸ List.cons_ne_nil part [])
  · rename_i hsome _
    exact iff_of_false Predicate.noConfusion hsome

end Predicate

namespace Store

variable (s : Store) (m : Model) (row : Row)

/-- Merging the parts of a conjunction does not change where it holds. -/
theorem holds_mkAll_eq (parts : List Predicate) :
    s.holds m row (.mkAll parts) = s.holds m row (.all parts) := by
  refine s.holds_congr ?_ fun choices ↦ ?_
  · rw [Predicate.positive_mkAll, Predicate.positive_all]
  · rw [satisfies_mkAll, satisfies_all]

/-- Merging the parts of a disjunction does not change where it holds, not even if a trivial part
makes the conditions of the others disappear. -/
theorem holds_mkAny_eq (parts : List Predicate) :
    s.holds m row (.mkAny parts) = s.holds m row (.any parts) := by
  have hsatisfies : ∀ choices,
      s.satisfies m row choices (.mkAny parts) = s.satisfies m row choices (.any parts) :=
    fun choices ↦ by rw [satisfies_mkAny, satisfies_any]
  cases htrivial : parts.any Predicate.isAlways with
  | true =>
    have hany : ∀ choices, s.satisfies m row choices (.mkAny parts) = true := fun choices ↦ by
      rw [Predicate.mkAny, htrivial, if_pos rfl, satisfies_always]
    rw [s.holds_of_satisfies hany,
      s.holds_of_satisfies fun choices ↦ (hsatisfies choices).symm.trans (hany choices)]
  | false =>
    refine s.holds_congr ?_ hsatisfies
    rw [Predicate.positive_mkAny (by simpa using htrivial), Predicate.positive_any]

end Store

/-- The constructors that merge keep what a predicate says and build normal trees only. A
conjunction, a disjunction and the conjunction of two predicates hold of the same rows as the trees
they stand for, in every store; conjunctions keep all conditions in their order; every tree that is
built is normal; and a conjunction of built trees is the trivial one, for which a plan leaves the
exclusion out, exactly if each part is. -/
theorem Predicate.constructors_keep_meaning_and_normalise :
    (∀ (s : Store) (m : Model) (row : Row),
      (∀ parts, s.holds m row (mkAll parts) = s.holds m row (.all parts)) ∧
        (∀ parts, s.holds m row (mkAny parts) = s.holds m row (.any parts)) ∧
        ∀ p q : Predicate, s.holds m row (p.and q) = s.holds m row (.all [p, q])) ∧
      (∀ parts, (mkAll parts).conditions = (Predicate.all parts).conditions) ∧
      (∀ p q : Predicate, (p.and q).conditions = p.conditions ++ q.conditions) ∧
      (∀ p : Predicate, p.Built → p.IsNormal) ∧
      ∀ parts : List Predicate, (∀ part ∈ parts, part.Built) →
        ((mkAll parts).isAlways = true ↔ ∀ part ∈ parts, part = .always) ∧
          (mkAll parts = .always ↔ ∀ part ∈ parts, part = .always) ∧
          (Plan.exclusion (mkAll parts) = [] ↔ ∀ part ∈ parts, part = .always) := by
  refine ⟨fun s m row ↦ ⟨s.holds_mkAll_eq m row, s.holds_mkAny_eq m row,
    fun p q ↦ s.holds_mkAll_eq m row [p, q]⟩, fun parts ↦ ?_, fun p q ↦ ?_, fun p ↦ Built.isNormal,
    fun parts hbuilt ↦ ?_⟩
  · rw [conditions_mkAll, conditions_all]
  · rw [Predicate.and, conditions_mkAll, List.flatMap_cons, List.flatMap_singleton]
  · have htrivial := mkAll_eq_always_iff fun part hpart ↦ (hbuilt part hpart).isNormal
    have hexclusion : Plan.exclusion (mkAll parts) = [] ↔ (mkAll parts).isAlways = true := by
      rw [Plan.exclusion]
      cases (mkAll parts).isAlways <;> simp
    exact ⟨isAlways_iff.trans htrivial, htrivial, hexclusion.trans (isAlways_iff.trans htrivial)⟩

/-- A conjunction within a conjunction beside a disjunction, and a conjunction of trivial parts in
two levels, which excludes nothing. -/
theorem Predicate.nested_conjunctions_isNormal :
    let row (id : String) : Predicate := eq "id" (.text id)
    (mkAll [mkAll [row "1", row "2"], mkAny [row "3", row "4"]]).IsNormal ∧
      Plan.exclusion (mkAll [.always, mkAll [.always]]) = [] := by
  intro row
  obtain ⟨-, -, -, hnormal, htrivial⟩ := constructors_keep_meaning_and_normalise
  have hpair : ∀ first second, ∀ part ∈ [row first, row second], part.Built := fun _ _ ↦
    List.forall_mem_cons.mpr ⟨.leaf _, List.forall_mem_singleton.mpr (.leaf _)⟩
  refine ⟨hnormal _ (.mkAll (List.forall_mem_cons.mpr ⟨.mkAll (hpair "1" "2"),
    List.forall_mem_singleton.mpr (.mkAny (hpair "3" "4"))⟩)), ?_⟩
  have hbuilt : ∀ part ∈ [Predicate.always, mkAll [.always]], part.Built :=
    List.forall_mem_cons.mpr ⟨.always,
      List.forall_mem_singleton.mpr (.mkAll (List.forall_mem_singleton.mpr .always))⟩
  exact (htrivial _ hbuilt).2.2.mpr
    (List.forall_mem_cons.mpr ⟨rfl, List.forall_mem_singleton.mpr rfl⟩)

end RowAccess

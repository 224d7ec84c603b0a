import RowAccess.Store.Evaluation

/-!
# Predicates as trees

Evaluation and the collection of conditions are written as recursions over a tree together with its
lists of parts. Here the recursions over lists are read as the list operations they are, and one
induction principle replaces the pair of them: a statement about predicates is shown for a
conjunction or a disjunction from what it says of every part.

The constructors that merge nested parts keep both readings: a conjunction built by `mkAll` holds
where all of its parts hold and has their conditions in their order, and so for `mkAny`.
-/

namespace RowAccess

namespace Predicate

/-- Induction on predicates, with a hypothesis for every part of a conjunction or disjunction. -/
@[elab_as_elim]
theorem treeInduction {motive : Predicate → Prop} (always : motive .always)
    (leaf : ∀ c, motive (.leaf c))
    (all : ∀ parts, (∀ part ∈ parts, motive part) → motive (.all parts))
    (any : ∀ parts, (∀ part ∈ parts, motive part) → motive (.any parts))
    (not : ∀ part, motive part → motive (.not part)) (p : Predicate) : motive p :=
  @Predicate.rec motive (fun parts ↦ ∀ part ∈ parts, motive part) always leaf all any not
    (fun _ h ↦ absurd h List.not_mem_nil)
    (fun _ _ hpart hrest _ h ↦ (List.mem_cons.mp h).elim (fun e ↦ e ▸ hpart) (hrest _)) p

/-! ## The conditions outside of negations -/

theorem positiveOf_eq_flatMap (parts : List Predicate) :
    positiveOf parts = parts.flatMap positive := by
  induction parts with
  | nil => rfl
  | cons part rest ih => rw [positiveOf, ih, List.flatMap_cons]

@[simp] theorem positive_all (parts : List Predicate) :
    (Predicate.all parts).positive = parts.flatMap positive := by
  rw [positive, positiveOf_eq_flatMap]

@[simp] theorem positive_any (parts : List Predicate) :
    (Predicate.any parts).positive = parts.flatMap positive := by
  rw [positive, positiveOf_eq_flatMap]

@[simp] theorem positive_leaf (c : Condition) : (leaf c).positive = [c] := by rw [positive]

@[simp] theorem positive_always : always.positive = [] := by rw [positive]

@[simp] theorem positive_not (p : Predicate) : p.not.positive = [] := by rw [positive]

/-- What is collected from the parts of a conjunction is collected from the parts of one that is
built, in their order. -/
theorem collect_mkAll {α : Type} {collect : Predicate → List α} (halways : collect .always = [])
    (hall : ∀ parts, collect (.all parts) = parts.flatMap collect) (parts : List Predicate) :
    collect (mkAll parts) = parts.flatMap collect := by
  have hconjuncts : ∀ p : Predicate, p.conjuncts.flatMap collect = collect p := fun p ↦ by
    cases p <;> simp [conjuncts, halways, hall]
  have hflat : (parts.flatMap conjuncts).flatMap collect = parts.flatMap collect := by
    rw [List.flatMap_assoc]
    exact congrArg parts.flatMap (funext hconjuncts)
  rw [mkAll, ← hflat]
  split
  · rename_i h
    rw [h, halways, List.flatMap_nil]
  · rename_i part h
    rw [h, List.flatMap_singleton]
  · exact hall _

theorem positive_mkAll (parts : List Predicate) :
    (mkAll parts).positive = parts.flatMap positive :=
  collect_mkAll positive_always positive_all parts

theorem collect_mkAny {α : Type} {collect : Predicate → List α}
    (hany : ∀ parts, collect (.any parts) = parts.flatMap collect) {parts : List Predicate}
    (h : ∀ part ∈ parts, part.isAlways = false) :
    collect (mkAny parts) = parts.flatMap collect := by
  have hdisjuncts : ∀ p : Predicate, p.disjuncts.flatMap collect = collect p := fun p ↦ by
    cases p <;> simp [disjuncts, hany]
  have hflat : (parts.flatMap disjuncts).flatMap collect = parts.flatMap collect := by
    rw [List.flatMap_assoc]
    exact congrArg parts.flatMap (funext hdisjuncts)
  have hnone : parts.any isAlways = false := by simpa using h
  rw [mkAny, hnone, if_neg Bool.false_ne_true, ← hflat]
  split
  · rename_i part h
    rw [h, List.flatMap_singleton]
  · exact hany _

theorem positive_mkAny {parts : List Predicate} (h : ∀ part ∈ parts, part.isAlways = false) :
    (mkAny parts).positive = parts.flatMap positive :=
  collect_mkAny positive_any h

theorem conditionsOf_eq_flatMap (parts : List Predicate) :
    conditionsOf parts = parts.flatMap conditions := by
  induction parts with
  | nil => rfl
  | cons part rest ih => rw [conditionsOf, ih, List.flatMap_cons]

@[simp] theorem conditions_all (parts : List Predicate) :
    (Predicate.all parts).conditions = parts.flatMap conditions := by
  rw [conditions, conditionsOf_eq_flatMap]

@[simp] theorem conditions_any (parts : List Predicate) :
    (Predicate.any parts).conditions = parts.flatMap conditions := by
  rw [conditions, conditionsOf_eq_flatMap]

theorem conditions_mkAll (parts : List Predicate) :
    (mkAll parts).conditions = parts.flatMap conditions :=
  collect_mkAll (by rw [conditions]) conditions_all parts

theorem conditions_mkAny {parts : List Predicate} (h : ∀ part ∈ parts, part.isAlways = false) :
    (mkAny parts).conditions = parts.flatMap conditions :=
  collect_mkAny conditions_any h

theorem positive_subset_conditions (p : Predicate) : p.positive ⊆ p.conditions := by
  have hparts : ∀ parts : List Predicate, (∀ part ∈ parts, part.positive ⊆ part.conditions) →
      parts.flatMap positive ⊆ parts.flatMap conditions := by
    intro parts h c hc
    obtain ⟨part, hpart, hmem⟩ := List.mem_flatMap.mp hc
    exact List.mem_flatMap.mpr ⟨part, hpart, h part hpart hmem⟩
  induction p using treeInduction with
  | always => exact List.Subset.refl _
  | leaf c => rw [positive_leaf, conditions]; exact List.Subset.refl _
  | all parts ih =>
    rw [positive_all, conditions_all]
    exact hparts parts ih
  | any parts ih =>
    rw [positive_any, conditions_any]
    exact hparts parts ih
  | not part ih =>
    rw [positive_not]
    exact List.nil_subset _

end Predicate

/-! ## Evaluation -/

namespace Store

variable (s : Store) (m : Model) (row : Row) (choices : List (String × Choice))

theorem satisfiesAll_eq_all (parts : List Predicate) :
    s.satisfiesAll m row choices parts = parts.all (s.satisfies m row choices) := by
  induction parts with
  | nil => rfl
  | cons part rest ih => rw [satisfiesAll, ih, List.all_cons]

theorem satisfiesAny_eq_any (parts : List Predicate) :
    s.satisfiesAny m row choices parts = parts.any (s.satisfies m row choices) := by
  induction parts with
  | nil => rfl
  | cons part rest ih => rw [satisfiesAny, ih, List.any_cons]

@[simp] theorem satisfies_all (parts : List Predicate) :
    s.satisfies m row choices (.all parts) = parts.all (s.satisfies m row choices) := by
  rw [satisfies, satisfiesAll_eq_all]

@[simp] theorem satisfies_any (parts : List Predicate) :
    s.satisfies m row choices (.any parts) = parts.any (s.satisfies m row choices) := by
  rw [satisfies, satisfiesAny_eq_any]

@[simp] theorem satisfies_always : s.satisfies m row choices .always = true := by rw [satisfies]

@[simp] theorem satisfies_leaf (c : Condition) :
    s.satisfies m row choices (.leaf c) = s.meets m row choices c := by rw [satisfies]

@[simp] theorem satisfies_not (p : Predicate) :
    s.satisfies m row choices p.not = !s.satisfies m row [] p := by rw [satisfies]

theorem satisfies_conjuncts (p : Predicate) :
    p.conjuncts.all (s.satisfies m row choices) = s.satisfies m row choices p := by
  cases p <;> simp [Predicate.conjuncts]

theorem satisfies_disjuncts (p : Predicate) :
    p.disjuncts.any (s.satisfies m row choices) = s.satisfies m row choices p := by
  cases p <;> simp [Predicate.disjuncts]

theorem satisfies_mkAll (parts : List Predicate) :
    s.satisfies m row choices (.mkAll parts) = parts.all (s.satisfies m row choices) := by
  have hflat : (parts.flatMap Predicate.conjuncts).all (s.satisfies m row choices)
      = parts.all (s.satisfies m row choices) := by
    rw [List.all_flatMap]
    exact congrArg parts.all (funext fun part ↦ satisfies_conjuncts s m row choices part)
  rw [Predicate.mkAll, ← hflat]
  split
  · rename_i h
    rw [h, satisfies_always, List.all_nil]
  · rename_i part h
    rw [h, List.all_cons, List.all_nil, Bool.and_true]
  · exact satisfies_all s m row choices _

theorem satisfies_mkAny (parts : List Predicate) :
    s.satisfies m row choices (.mkAny parts) = parts.any (s.satisfies m row choices) := by
  have hflat : (parts.flatMap Predicate.disjuncts).any (s.satisfies m row choices)
      = parts.any (s.satisfies m row choices) := by
    rw [List.any_flatMap]
    exact congrArg parts.any (funext fun part ↦ satisfies_disjuncts s m row choices part)
  rw [Predicate.mkAny]
  split
  · rename_i h
    obtain ⟨part, hpart, halways⟩ := List.any_eq_true.mp h
    have hholds : s.satisfies m row choices part = true := by
      cases part <;> simp_all [Predicate.isAlways]
    rw [satisfies_always, List.any_eq_true.mpr ⟨part, hpart, hholds⟩]
  · rw [← hflat]
    split
    · rename_i part h
      rw [h, List.any_cons, List.any_nil, Bool.or_false]
    · exact satisfies_any s m row choices _

end Store

end RowAccess

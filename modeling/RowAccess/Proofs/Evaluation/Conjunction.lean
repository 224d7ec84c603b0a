import RowAccess.Proofs.Evaluation.Choices

/-!
# Conjunctions that share related rows

A conjunction is evaluated under one choice of related rows for all of its parts, and a relation
that no single part joins may be joined in the conjunction. More joined relations mean fewer reached
values, so whatever holds of a row in the conjunction also holds of it alone, unless null is what a
part asks for (`holds_of_holds_mkAll`). A part that speaks of no many-to-many relation shares no
choice with the others, and a conjunction with it is one of answers (`holds_mkAll_cons`).
-/

namespace RowAccess

namespace Predicate

theorem joinedRoots_subset {p q : Predicate} (h : p.positive.Sublist q.positive) (m : Model) :
    p.joinedRoots m ⊆ q.joinedRoots m := by
  intro root hroot
  obtain ⟨hmany, hcount⟩ := mem_joinedRoots.mp hroot
  exact mem_joinedRoots.mpr ⟨hmany, Nat.le_trans hcount ((h.map Condition.root).count_le root)⟩

theorem positive_sublist_mkAll {part : Predicate} {parts : List Predicate} (h : part ∈ parts) :
    part.positive.Sublist (mkAll parts).positive := by
  obtain ⟨before, behind, rfl⟩ := List.append_of_mem h
  rw [positive_mkAll, List.flatMap_append, List.flatMap_cons]
  exact (List.sublist_append_left _ _).trans (List.sublist_append_right _ _)

theorem joinedRoots_eq_of_filter_eq {p q : Predicate} {m : Model}
    (h : (p.positive.map Condition.root).filter m.isManyToMany
      = (q.positive.map Condition.root).filter m.isManyToMany) :
    p.joinedRoots m = q.joinedRoots m := by
  rw [joinedRoots, joinedRoots, h]

theorem mkAll_always_cons (parts : List Predicate) : mkAll (.always :: parts) = mkAll parts := by
  rw [mkAll, mkAll, List.flatMap_cons, conjuncts, List.nil_append]

/-- A predicate speaks of no many-to-many relation, at least outside of negations. -/
def Unjoined (m : Model) (p : Predicate) : Prop :=
  ∀ c ∈ p.positive, m.isManyToMany c.root = false

theorem unjoined_not {m : Model} (p : Predicate) : p.not.Unjoined m := by
  rw [Unjoined, positive_not]
  exact nofun

theorem Unjoined.filter_roots {m : Model} {p : Predicate} (h : p.Unjoined m) :
    (p.positive.map Condition.root).filter m.isManyToMany = [] := by
  rw [List.filter_eq_nil_iff]
  intro root hroot
  obtain ⟨c, hc, rfl⟩ := List.mem_map.mp hroot
  rw [h c hc]
  exact Bool.false_ne_true

theorem Unjoined.joinedRoots_eq_nil {m : Model} {p : Predicate} (h : p.Unjoined m) :
    p.joinedRoots m = [] := by
  rw [joinedRoots, h.filter_roots]
  rfl

end Predicate

namespace Store

variable (s : Store) {m : Model} {row : Row}

/-- What holds in a conjunction holds alone, if null meets none of its conditions. -/
theorem holds_of_holds_mkAll {part : Predicate} {parts : List Predicate} (hpart : part ∈ parts)
    (hstrict : ∀ c ∈ part.positive, c.holdsOf .null = false)
    (h : s.holds m row (.mkAll parts) = true) : s.holds m row part = true := by
  obtain ⟨pick, hoffers, hholds⟩ := s.holds_iff.mp h
  have hsub := Predicate.joinedRoots_subset (Predicate.positive_sublist_mkAll hpart) m
  rw [satisfies_mkAll, List.all_eq_true] at hholds
  refine s.holds_iff.mpr ⟨pick, fun root hroot ↦ hoffers root (hsub hroot), ?_⟩
  exact s.satisfies_mono (fun c hc ↦ s.meets_of_meets_more (hstrict c hc) hsub hoffers)
    (hholds part hpart)

/-- A predicate that speaks of no many-to-many relation is evaluated without choices. -/
theorem satisfies_chosen_of_unjoined {p : Predicate} (h : p.Unjoined m)
    (choices : List (String × Choice)) :
    s.satisfies m row choices p = s.holds m row p := by
  rw [holds, h.joinedRoots_eq_nil, someChoice]
  refine s.satisfies_congr fun c hc hmany ↦ ?_
  rw [h c hc] at hmany
  exact absurd hmany Bool.false_ne_true

theorem holds_not (p : Predicate) : s.holds m row (.not p) = !s.satisfies m row [] p := by
  rw [← s.satisfies_chosen_of_unjoined (Predicate.unjoined_not p) [], satisfies_not]

/-- A part that speaks of no many-to-many relation can be taken out of a conjunction. -/
theorem holds_mkAll_cons {p : Predicate} (h : p.Unjoined m) (parts : List Predicate) :
    s.holds m row (.mkAll (p :: parts)) = (s.holds m row p && s.holds m row (.mkAll parts)) := by
  have hroots : (Predicate.mkAll (p :: parts)).joinedRoots m
      = (Predicate.mkAll parts).joinedRoots m := by
    refine Predicate.joinedRoots_eq_of_filter_eq ?_
    rw [Predicate.positive_mkAll, Predicate.positive_mkAll, List.flatMap_cons, List.map_append,
      List.filter_append, h.filter_roots, List.nil_append]
  rw [Bool.eq_iff_iff, Bool.and_eq_true, holds_iff, holds_iff (p := .mkAll parts), hroots]
  simp only [satisfies_mkAll, List.all_cons, Bool.and_eq_true, s.satisfies_chosen_of_unjoined h]
  constructor
  · rintro ⟨pick, hoffers, hp, hparts⟩
    exact ⟨hp, pick, hoffers, hparts⟩
  · rintro ⟨hp, pick, hoffers, hparts⟩
    exact ⟨pick, hoffers, hp, hparts⟩

end Store

end RowAccess

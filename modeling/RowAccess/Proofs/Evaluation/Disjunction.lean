import RowAccess.Proofs.Evaluation.Choices

/-!
# Disjunctions of conditions

A disjunction needs only one of its conditions, so joining its relations cannot make it harder to
satisfy: the condition that holds may choose the related row for everyone. As long as null meets
none of the conditions, a disjunction therefore holds of a row exactly if one of its conditions does
without any choice, and so the disjunction of several of them holds where one of them does.
-/

namespace RowAccess

namespace Predicate

/-- A predicate says that one of its conditions holds, and null meets none of them. -/
structure IsDisjunction (p : Predicate) : Prop where
  satisfies : ∀ (s : Store) (m : Model) (row : Row) (choices : List (String × Choice)),
    s.satisfies m row choices p = p.positive.any (s.meets m row choices)
  strict : ∀ c ∈ p.positive, c.holdsOf .null = false

theorem isDisjunction_leaf {c : Condition} (h : c.holdsOf .null = false) :
    (leaf c).IsDisjunction where
  satisfies s m row choices := by simp
  strict := by simpa using h

theorem IsDisjunction.isAlways_eq_false {p : Predicate} (h : p.IsDisjunction) :
    p.isAlways = false := by
  cases p with
  | always =>
    -- The trivial predicate has no condition and yet holds, which no disjunction does.
    have hholds := h.satisfies (.new ⟨{}, ⟨"", ""⟩, [], .nil⟩)
      { key := ⟨"", ""⟩, tier := .public } .empty []
    rw [Store.satisfies_always, positive_always, List.any_nil] at hholds
    exact absurd hholds (by decide)
  | leaf c => rfl
  | all parts => rfl
  | any parts => rfl
  | not part => rfl

theorem isDisjunction_mkAny {parts : List Predicate} (h : ∀ part ∈ parts, part.IsDisjunction) :
    (mkAny parts).IsDisjunction := by
  have hpositive : (mkAny parts).positive = parts.flatMap positive :=
    positive_mkAny fun part hpart ↦ (h part hpart).isAlways_eq_false
  constructor
  · intro s m row choices
    rw [Store.satisfies_mkAny, hpositive, List.any_flatMap, Bool.eq_iff_iff, List.any_eq_true,
      List.any_eq_true]
    exact exists_congr fun part ↦ and_congr_right fun hpart ↦ by
      rw [(h part hpart).satisfies s m row choices]
  · intro c hc
    rw [hpositive] at hc
    obtain ⟨part, hpart, hmem⟩ := List.mem_flatMap.mp hc
    exact (h part hpart).strict c hmem

theorem IsDisjunction.or {p q : Predicate} (hp : p.IsDisjunction) (hq : q.IsDisjunction) :
    (mkAny [p, q]).IsDisjunction :=
  isDisjunction_mkAny (List.forall_mem_cons.mpr ⟨hp, List.forall_mem_singleton.mpr hq⟩)

end Predicate

namespace Store

variable (s : Store) {m : Model} {row : Row}

/-- What every choice satisfies holds, since every relation offers some choice. -/
theorem holds_of_satisfies {p : Predicate}
    (h : ∀ choices, s.satisfies m row choices p = true) : s.holds m row p = true :=
  s.holds_iff.mpr ⟨row.someChoiceFor, fun root _ ↦ row.someChoiceFor_mem root, h _⟩

theorem holds_always : s.holds m row .always = true :=
  s.holds_of_satisfies (s.satisfies_always m row)

/-- Where a condition of a disjunction holds without choices, some offered choices for any relations
satisfy the disjunction. -/
theorem exists_pick_of_meets {p : Predicate} (h : p.IsDisjunction) {roots : List String}
    (hroots : ∀ root ∈ roots, m.isManyToMany root = true) {c : Condition} (hc : c ∈ p.positive)
    (hmeets : s.meets m row [] c = true) :
    ∃ pick, row.Offers roots pick ∧ s.satisfies m row (chosen roots pick) p = true := by
  simp only [h.satisfies, List.any_eq_true]
  by_cases hjoined : c.root ∈ roots
  · -- The condition that holds picks for its own relation, any choice will do for the others.
    obtain ⟨choice, hchoice, hbound⟩ := s.exists_choice_of_meets (hroots c.root hjoined) hmeets
    let pick : String → Choice := fun root ↦
      if root = c.root then choice else row.someChoiceFor root
    refine ⟨pick, fun root _ ↦ ?_, c, hc, hbound _ ?_⟩
    · by_cases hroot : root = c.root
      · simp only [pick, if_pos hroot]
        exact hroot ▸ hchoice
      · simp only [pick, if_neg hroot]
        exact row.someChoiceFor_mem root
    · rw [lookup_chosen, if_pos hjoined]
      simp only [pick, if_pos]
  · refine ⟨row.someChoiceFor, fun root _ ↦ row.someChoiceFor_mem root, c, hc, ?_⟩
    rwa [s.meets_congr [] fun _ ↦ by
      rw [lookup_chosen, if_neg hjoined, List.lookup_nil]]

/-- A disjunction holds of a row if one of its conditions does. -/
theorem holds_disjunction {p : Predicate} (h : p.IsDisjunction) :
    s.holds m row p = p.positive.any (s.meets m row []) := by
  rw [Bool.eq_iff_iff, holds_iff, List.any_eq_true]
  constructor
  · rintro ⟨pick, hoffers, hsatisfies⟩
    rw [h.satisfies, List.any_eq_true] at hsatisfies
    obtain ⟨c, hc, hmeets⟩ := hsatisfies
    exact ⟨c, hc, s.meets_of_meets_chosen (h.strict c hc) (lookup_chosen_offered hoffers c.root)
      hmeets⟩
  · rintro ⟨c, hc, hmeets⟩
    exact s.exists_pick_of_meets h (fun root hroot ↦ (Predicate.mem_joinedRoots.mp hroot).1) hc
      hmeets

theorem holds_leaf (c : Condition) : s.holds m row (.leaf c) = s.meets m row [] c := by
  have hroots : (Predicate.leaf c).joinedRoots m = [] := by
    rw [List.eq_nil_iff_forall_not_mem]
    intro root hroot
    have hcount := (Predicate.mem_joinedRoots.mp hroot).2
    rw [Predicate.positive_leaf] at hcount
    exact absurd (Nat.le_trans hcount List.count_le_length) (by simp)
  rw [holds, hroots, someChoice, satisfies_leaf]

theorem holds_mkAny {parts : List Predicate} (h : ∀ part ∈ parts, part.IsDisjunction) :
    s.holds m row (.mkAny parts) = parts.any (s.holds m row) := by
  rw [s.holds_disjunction (Predicate.isDisjunction_mkAny h),
    Predicate.positive_mkAny fun part hpart ↦ (h part hpart).isAlways_eq_false, List.any_flatMap,
    Bool.eq_iff_iff, List.any_eq_true, List.any_eq_true]
  exact exists_congr fun part ↦ and_congr_right fun hpart ↦ by
    rw [s.holds_disjunction (h part hpart)]

theorem holds_mkAny_pair {p q : Predicate} (hp : p.IsDisjunction) (hq : q.IsDisjunction) :
    s.holds m row (.mkAny [p, q]) = (s.holds m row p || s.holds m row q) := by
  rw [s.holds_mkAny (List.forall_mem_cons.mpr ⟨hp, List.forall_mem_singleton.mpr hq⟩),
    List.any_cons, List.any_cons, List.any_nil, Bool.or_false]

end Store

end RowAccess

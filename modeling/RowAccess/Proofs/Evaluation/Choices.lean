import RowAccess.Proofs.Condition.Path
import RowAccess.Proofs.Evaluation.JoinedRoots
import RowAccess.Proofs.Evaluation.Tree

/-!
# Choices of related rows

A predicate is evaluated by a search over choices of related rows, one for every joined relation.
This module reads the search as a single existence statement: a predicate holds of a row if and
only if some function picks, for every joined relation, one of the row's choices under which the
predicate is satisfied (`holds_iff`).

What a path reaches is collected from the related ids one by one (`reached_relation`), and a choice
is one of these ids. So a choice can only take reached values away, and whatever an unbound
condition finds is found again under a suitable choice. The one exception is a condition that holds
of null, since null stands in for the values when none are reached; statements that narrow or widen
the choices therefore ask for conditions that null does not meet.
-/

namespace RowAccess

/-- A choice that a row always offers: its first related id, or that of no related row. -/
def Row.someChoiceFor (row : Row) (root : String) : Choice := (row.choicesFor root).headD none

theorem Row.someChoiceFor_mem (row : Row) (root : String) :
    row.someChoiceFor root ∈ row.choicesFor root := by
  rw [someChoiceFor, choicesFor]
  split
  · exact List.mem_singleton_self none
  · rename_i ids h
    obtain ⟨id, rest, hids⟩ := List.exists_cons_of_ne_nil h
    rw [hids]
    exact List.mem_cons_self

theorem Row.some_mem_choicesFor {row : Row} {root : String} {id : Json} :
    some id ∈ row.choicesFor root ↔ id ∈ relatedIds (row.valueOf root) := by
  rw [choicesFor]
  split
  · rename_i h
    simp [h]
  · simp

/-! ## What a relation path reaches -/

namespace Store

variable (s : Store) (m : Model) (row : Row)

/-- What a path through a relation reaches from one related id. -/
def reachedVia (spec : FieldSpec) (rest : List String) (id : Json) : List Json :=
  if rest.isEmpty then [id]
  else
    match spec.target with
    | none => []
    | some target =>
      if s.registry.isIdentity target then (if rest = ["id"] then [id] else [])
      else
        match s.registry.get? target, s.table? target with
        | some m', some t =>
          match id.asInt64?.bind t.get? with
          | some row' => s.reached m' row' [] rest
          | none => []
        | _, _ => []

/-- A path through a relation reaches what its related ids reach, one by one. -/
theorem reached_relation {name : String} {spec : FieldSpec} (hfield : m.field? name = some spec)
    (hrelation : spec.kind.isRelation = true) (choices : List (String × Choice))
    (rest : List String) :
    s.reached m row choices (name :: rest)
      = (idsUnder spec.kind (choices.lookup name) (row.valueOf name)).flatMap
          (s.reachedVia spec rest) := by
  have hfilter : (m.field? name).filter (fun spec ↦ spec.kind.isRelation) = some spec := by
    rw [hfield, Option.filter_some, if_pos hrelation]
  rw [reached, hfilter]
  unfold reachedVia
  dsimp only
  cases rest with
  | nil => simp
  | cons next rest =>
    cases spec.target with
    | none => simp
    | some target =>
      by_cases hidentity : s.registry.isIdentity target = true
      · by_cases hid : next :: rest = ["id"] <;> simp [hidentity, hid]
      · cases hmodel : s.registry.get? target with
        | none => simp [hidentity, hmodel]
        | some m' =>
          cases htable : s.table? target with
          | none => simp [hidentity, hmodel, htable]
          | some t =>
            simp only [hidentity, hmodel, htable]
            rfl

theorem reached_plain {name : String} (h : m.hasRelation name = false)
    (choices : List (String × Choice)) (rest : List String) :
    s.reached m row choices (name :: rest) = if rest.isEmpty then [row.valueOf name] else [] := by
  have hnone : (m.field? name).filter (fun spec ↦ spec.kind.isRelation) = none := by
    rw [Model.hasRelation] at h
    cases hf : m.field? name with
    | none => rfl
    | some spec =>
      rw [hf, Option.any_some] at h
      rw [Option.filter_some, if_neg (by simp [h])]
  rw [reached, hnone]

/-! ## Conditions under choices -/

variable {m row}

/-- A condition holds if a reached value satisfies it, or null does where nothing is reached. -/
theorem meets_iff {choices : List (String × Choice)} {c : Condition} :
    s.meets m row choices c = true ↔
      (∃ v ∈ s.reached m row choices (pathSegments c.path), c.holdsOf v = true) ∨
        s.reached m row choices (pathSegments c.path) = [] ∧ c.holdsOf .null = true := by
  rw [meets]
  split
  · rename_i h
    simp [h]
  · rename_i values h
    rw [List.any_eq_true]
    exact ⟨.inl, fun hc ↦ hc.resolve_right fun hempty ↦ h hempty.1⟩

theorem meets_iff_of_not_null {choices : List (String × Choice)} {c : Condition}
    (h : c.holdsOf .null = false) :
    s.meets m row choices c = true ↔
      ∃ v ∈ s.reached m row choices (pathSegments c.path), c.holdsOf v = true := by
  rw [meets_iff, h]
  simp

theorem reached_congr {choices others : List (String × Choice)} {name : String}
    (h : m.isManyToMany name = true → choices.lookup name = others.lookup name)
    (rest : List String) :
    s.reached m row choices (name :: rest) = s.reached m row others (name :: rest) := by
  cases hrelation : m.hasRelation name with
  | false => rw [s.reached_plain m row hrelation, s.reached_plain m row hrelation]
  | true =>
    obtain ⟨spec, hfield, hkind⟩ := Model.hasRelation_iff.mp hrelation
    rw [s.reached_relation m row hfield hkind, s.reached_relation m row hfield hkind]
    by_cases hmany : spec.kind = .manyToMany
    · rw [h (Model.isManyToMany_iff.mpr ⟨spec, hfield, hmany⟩)]
    · cases hk : spec.kind <;> first | rfl | exact absurd hk hmany

theorem meets_congr {choices : List (String × Choice)} (others : List (String × Choice))
    {c : Condition}
    (h : m.isManyToMany c.root = true → choices.lookup c.root = others.lookup c.root) :
    s.meets m row choices c = s.meets m row others c := by
  obtain ⟨rest, hsegments⟩ := c.segments_eq_cons
  have hreached : s.reached m row choices (c.root :: rest)
      = s.reached m row others (c.root :: rest) := s.reached_congr h rest
  rw [meets, meets, hsegments]
  exact hreached ▸ rfl

theorem idsUnder_subset {kind : FieldKind} {name : String} {choice? : Option Choice}
    (h : ∀ choice, choice? = some choice → choice ∈ row.choicesFor name) :
    idsUnder kind choice? (row.valueOf name) ⊆ relatedIds (row.valueOf name) := by
  unfold idsUnder
  split
  · rename_i choice
    have hoffered := h choice rfl
    rw [Row.choicesFor] at hoffered
    split at hoffered
    · rw [List.mem_singleton.mp hoffered]
      exact List.nil_subset _
    · obtain ⟨id, hid, rfl⟩ := List.mem_map.mp hoffered
      exact List.cons_subset.mpr ⟨hid, List.nil_subset _⟩
  · exact List.Subset.refl _

/-- Under a choice for a many-to-many relation a path goes on from the chosen id alone. -/
theorem reached_chosen {name : String} {spec : FieldSpec} (hfield : m.field? name = some spec)
    (hkind : spec.kind = .manyToMany) {choices : List (String × Choice)} {choice : Choice}
    (h : choices.lookup name = some choice) (rest : List String) :
    s.reached m row choices (name :: rest) = choice.toList.flatMap (s.reachedVia spec rest) := by
  rw [s.reached_relation m row hfield (by rw [hkind]; rfl), h, hkind]
  rfl

/-- Under offered choices nothing is reached that is not reached without them. -/
theorem reached_subset {choices : List (String × Choice)} {name : String}
    (h : ∀ choice, choices.lookup name = some choice → choice ∈ row.choicesFor name)
    (rest : List String) :
    s.reached m row choices (name :: rest) ⊆ s.reached m row [] (name :: rest) := by
  cases hrelation : m.hasRelation name with
  | false =>
    rw [s.reached_plain m row hrelation, s.reached_plain m row hrelation]
    exact List.Subset.refl _
  | true =>
    obtain ⟨spec, hfield, hkind⟩ := Model.hasRelation_iff.mp hrelation
    rw [s.reached_relation m row hfield hkind, s.reached_relation m row hfield hkind]
    have hall : idsUnder spec.kind ([].lookup name) (row.valueOf name)
        = relatedIds (row.valueOf name) := by
      cases spec.kind <;> rfl
    rw [hall]
    intro v hv
    obtain ⟨id, hid, hreached⟩ := List.mem_flatMap.mp hv
    exact List.mem_flatMap.mpr ⟨id, idsUnder_subset h hid, hreached⟩

theorem meets_of_meets_chosen {choices : List (String × Choice)} {c : Condition}
    (hnull : c.holdsOf .null = false)
    (h : ∀ choice, choices.lookup c.root = some choice → choice ∈ row.choicesFor c.root)
    (hc : s.meets m row choices c = true) : s.meets m row [] c = true := by
  obtain ⟨rest, hsegments⟩ := c.segments_eq_cons
  rw [s.meets_iff_of_not_null hnull, hsegments] at hc ⊢
  obtain ⟨v, hv, hholds⟩ := hc
  exact ⟨v, s.reached_subset h rest hv, hholds⟩

/-- What a condition on a many-to-many relation finds without choices, it finds again under a
suitable one. -/
theorem exists_choice_of_meets {c : Condition} (hroot : m.isManyToMany c.root = true)
    (hc : s.meets m row [] c = true) :
    ∃ choice ∈ row.choicesFor c.root, ∀ choices : List (String × Choice),
      choices.lookup c.root = some choice → s.meets m row choices c = true := by
  obtain ⟨rest, hsegments⟩ := c.segments_eq_cons
  obtain ⟨spec, hfield, hkind⟩ := Model.isManyToMany_iff.mp hroot
  have hrelation : spec.kind.isRelation = true := by rw [hkind]; rfl
  have hfree : s.reached m row [] (c.root :: rest)
      = (relatedIds (row.valueOf c.root)).flatMap (s.reachedVia spec rest) := by
    rw [s.reached_relation m row hfield hrelation, hkind]
    rfl
  rw [s.meets_iff, hsegments, hfree] at hc
  rcases hc with ⟨v, hv, hholds⟩ | ⟨hempty, hnull⟩
  · obtain ⟨id, hid, hreached⟩ := List.mem_flatMap.mp hv
    refine ⟨some id, Row.some_mem_choicesFor.mpr hid, fun choices h ↦ ?_⟩
    rw [s.meets_iff, hsegments, s.reached_chosen hfield hkind h]
    exact .inl ⟨v, by simpa using hreached, hholds⟩
  · have hoffered := row.someChoiceFor_mem c.root
    refine ⟨row.someChoiceFor c.root, hoffered, fun choices h ↦ ?_⟩
    have hsub : s.reached m row choices (c.root :: rest) ⊆ s.reached m row [] (c.root :: rest) :=
      s.reached_subset (fun other e ↦ by
        rw [h] at e
        exact Option.some.inj e ▸ hoffered) rest
    rw [hfree, hempty] at hsub
    rw [s.meets_iff, hsegments]
    exact .inr ⟨List.subset_nil.mp hsub, hnull⟩

theorem meets_of_no_choice {choices : List (String × Choice)} {c : Condition}
    (hmany : m.isManyToMany c.root = true) (h : choices.lookup c.root = some none)
    (hnull : c.holdsOf .null = false) : s.meets m row choices c = false := by
  obtain ⟨rest, hsegments⟩ := c.segments_eq_cons
  obtain ⟨spec, hfield, hkind⟩ := Model.isManyToMany_iff.mp hmany
  rw [meets, hsegments, s.reached_chosen hfield hkind h]
  exact hnull

/-! ## Predicates under choices -/

/-- A predicate depends on the choices through its conditions outside of negations only, and in a
monotone way. -/
theorem satisfies_mono {choices others : List (String × Choice)} {p : Predicate}
    (h : ∀ c ∈ p.positive, s.meets m row choices c = true → s.meets m row others c = true)
    (hp : s.satisfies m row choices p = true) : s.satisfies m row others p = true := by
  induction p using Predicate.treeInduction with
  | always => exact s.satisfies_always m row others
  | leaf c =>
    rw [satisfies_leaf] at hp ⊢
    exact h c (by simp) hp
  | all parts ih =>
    rw [satisfies_all, List.all_eq_true] at hp ⊢
    refine fun part hpart ↦ ih part hpart (fun c hc ↦ h c ?_) (hp part hpart)
    rw [Predicate.positive_all]
    exact List.mem_flatMap.mpr ⟨part, hpart, hc⟩
  | any parts ih =>
    rw [satisfies_any, List.any_eq_true] at hp ⊢
    obtain ⟨part, hpart, hholds⟩ := hp
    refine ⟨part, hpart, ih part hpart (fun c hc ↦ h c ?_) hholds⟩
    rw [Predicate.positive_any]
    exact List.mem_flatMap.mpr ⟨part, hpart, hc⟩
  | not part ih =>
    -- Below the negation neither evaluation sees its choices.
    rwa [satisfies_not] at hp ⊢

theorem satisfies_congr {choices others : List (String × Choice)} {p : Predicate}
    (h : ∀ c ∈ p.positive, m.isManyToMany c.root = true →
      choices.lookup c.root = others.lookup c.root) :
    s.satisfies m row choices p = s.satisfies m row others p := by
  have hmeets : ∀ c ∈ p.positive, s.meets m row choices c = s.meets m row others c :=
    fun c hc ↦ s.meets_congr others (h c hc)
  rw [Bool.eq_iff_iff]
  exact ⟨s.satisfies_mono fun c hc ↦ (hmeets c hc ▸ ·),
    s.satisfies_mono fun c hc ↦ (hmeets c hc ▸ ·)⟩

end Store

/-! ## The search for choices -/

/-- The choices that a function picks for several relations. -/
def chosen (roots : List String) (pick : String → Choice) : List (String × Choice) :=
  roots.map fun root ↦ (root, pick root)

theorem lookup_chosen_append (roots : List String) (pick : String → Choice)
    (choices : List (String × Choice)) (root : String) :
    (chosen roots pick ++ choices).lookup root
      = if root ∈ roots then some (pick root) else choices.lookup root := by
  induction roots with
  | nil => simp [chosen]
  | cons first rest ih =>
    rw [chosen, List.map_cons, List.cons_append, lookup_cons_eq_ite, ← chosen, ih]
    by_cases h : root = first
    · subst h
      simp
    · simp [h]

theorem lookup_chosen (roots : List String) (pick : String → Choice) (root : String) :
    (chosen roots pick).lookup root = if root ∈ roots then some (pick root) else none := by
  rw [← List.append_nil (chosen roots pick), lookup_chosen_append, List.lookup_nil]

/-- A function picks, for each of several relations, a choice that the row offers. -/
def Row.Offers (row : Row) (roots : List String) (pick : String → Choice) : Prop :=
  ∀ root ∈ roots, pick root ∈ row.choicesFor root

namespace Store

variable (s : Store) {m : Model} {row : Row}

/-- The search succeeds if some function picks choices that satisfy the predicate. -/
theorem someChoice_iff {p : Predicate} {roots : List String} {choices : List (String × Choice)} :
    s.someChoice m row p roots choices = true ↔
      ∃ pick, row.Offers roots pick ∧
        s.satisfies m row (chosen roots pick ++ choices) p = true := by
  induction roots generalizing choices with
  | nil =>
    rw [someChoice]
    exact ⟨fun h ↦ ⟨fun _ ↦ none, fun root hroot ↦ absurd hroot List.not_mem_nil, h⟩,
      fun ⟨_, _, h⟩ ↦ h⟩
  | cons root rest ih =>
    rw [someChoice, List.any_eq_true]
    constructor
    · rintro ⟨choice, hchoice, hrest⟩
      obtain ⟨pick, hoffers, hholds⟩ := ih.mp hrest
      -- A relation that occurs again has its choice from its later occurrence.
      let pick' : String → Choice := fun other ↦ if other ∈ rest then pick other else choice
      refine ⟨pick', fun other hother ↦ ?_, ?_⟩
      · by_cases hmem : other ∈ rest
        · simp only [pick', if_pos hmem]
          exact hoffers other hmem
        · have hroot : other = root := (List.mem_cons.mp hother).resolve_right hmem
          simp only [pick', if_neg hmem]
          exact hroot ▸ hchoice
      · rw [← hholds]
        refine s.satisfies_congr fun c _ _ ↦ ?_
        rw [lookup_chosen_append, lookup_chosen_append, lookup_cons_eq_ite]
        by_cases hmem : c.root ∈ rest
        · simp [pick', hmem]
        · by_cases hroot : c.root = root
          · rw [if_neg hmem, if_pos (hroot ▸ List.mem_cons_self), if_pos hroot]
            simp only [pick', if_neg hmem]
          · rw [if_neg hmem, if_neg (by simp [hroot, hmem]), if_neg hroot]
    · rintro ⟨pick, hoffers, hholds⟩
      refine ⟨pick root, hoffers root List.mem_cons_self, ih.mpr ⟨pick, fun other hother ↦
        hoffers other (List.mem_cons_of_mem _ hother), ?_⟩⟩
      rw [← hholds]
      refine s.satisfies_congr fun c _ _ ↦ ?_
      rw [lookup_chosen_append, lookup_chosen_append, lookup_cons_eq_ite]
      by_cases hmem : c.root ∈ rest
      · simp [hmem]
      · by_cases hroot : c.root = root <;> simp [hmem, hroot]

/-- A predicate holds of a row if, under some choice of a related row for every joined relation,
it is satisfied. -/
theorem holds_iff {p : Predicate} :
    s.holds m row p = true ↔
      ∃ pick, row.Offers (p.joinedRoots m) pick ∧
        s.satisfies m row (chosen (p.joinedRoots m) pick) p = true := by
  rw [holds, someChoice_iff]
  simp only [List.append_nil]

theorem lookup_chosen_offered {roots : List String} {pick : String → Choice}
    (h : row.Offers roots pick) (root : String) (choice : Choice)
    (hlookup : (chosen roots pick).lookup root = some choice) : choice ∈ row.choicesFor root := by
  rw [lookup_chosen] at hlookup
  split at hlookup
  · rename_i hmem
    exact Option.some.inj hlookup ▸ h root hmem
  · exact absurd hlookup (Option.some_ne_none choice).symm

/-- A condition that null does not meet, and that holds under choices for several relations, holds
under the choices for some of them. -/
theorem meets_of_meets_more {c : Condition} {roots others : List String} {pick : String → Choice}
    (hnull : c.holdsOf .null = false) (hsub : others ⊆ roots) (h : row.Offers roots pick)
    (hc : s.meets m row (chosen roots pick) c = true) :
    s.meets m row (chosen others pick) c = true := by
  by_cases hmem : c.root ∈ others
  · rwa [s.meets_congr (chosen roots pick) fun _ ↦ by
      rw [lookup_chosen, lookup_chosen, if_pos hmem, if_pos (hsub hmem)]]
  · rw [s.meets_congr [] fun _ ↦ by
      rw [lookup_chosen, if_neg hmem, List.lookup_nil]]
    exact s.meets_of_meets_chosen hnull (lookup_chosen_offered h c.root) hc

/-- Where a predicate holds that asks for a condition, the condition is met without choices, if null
does not meet it. -/
theorem meets_of_holds {p : Predicate} {c : Condition} (hnull : c.holdsOf .null = false)
    (h : ∀ choices, s.satisfies m row choices p = true → s.meets m row choices c = true)
    (hp : s.holds m row p = true) : s.meets m row [] c = true := by
  obtain ⟨pick, hoffers, hsatisfies⟩ := s.holds_iff.mp hp
  exact s.meets_of_meets_chosen hnull (lookup_chosen_offered hoffers c.root) (h _ hsatisfies)

end Store

end RowAccess

import RowAccess.Proofs.Evaluation.Disjunction
import RowAccess.Proofs.Text.Split
import RowAccess.Query.Compilation

/-!
# The parts of a compiled query

Compilation gathers a predicate and further ones step by step. Here the steps are read as a list of
parts, each with the answer whether it stands on its own (`Parameters.parts`), and the gathered
predicates are what such a list makes (`compileParameters_eq_ofParts`). A part never merges with
another one: it is a disjunction of conditions on the key that it was compiled from.
-/

namespace RowAccess

/-! ## Disjunctions of conditions -/

namespace Predicate

/-- The disjunction of several conditions. -/
def anyOf (cs : List Condition) : Predicate := mkAny (cs.map leaf)

theorem anyOf_singleton (c : Condition) : anyOf [c] = leaf c := rfl

theorem positive_anyOf (cs : List Condition) : (anyOf cs).positive = cs := by
  have hleaf : ∀ part ∈ cs.map leaf, part.isAlways = false := by
    intro part hpart
    obtain ⟨c, -, rfl⟩ := List.mem_map.mp hpart
    rfl
  rw [anyOf, positive_mkAny hleaf, List.flatMap_map]
  simp only [positive_leaf, List.flatMap_singleton']

/-- A predicate counts as one part of a conjunction: it is neither trivial nor a conjunction
itself. -/
def IsPart (p : Predicate) : Prop := p.conjuncts = [p]

theorem anyOf_cases (cs : List Condition) :
    (∃ c, cs = [c]) ∨ anyOf cs = .any (cs.map leaf) := by
  have hflat : (cs.map leaf).flatMap disjuncts = cs.map leaf := by
    rw [List.flatMap_map]
    exact List.map_eq_flatMap.symm
  have hnone : (cs.map leaf).any isAlways = false := by simp [isAlways]
  rw [anyOf, mkAny, hnone, if_neg Bool.false_ne_true, hflat]
  split
  · rename_i part h
    obtain ⟨c, hc, -⟩ := List.map_eq_singleton_iff.mp h
    exact .inl ⟨c, hc⟩
  · exact .inr rfl

theorem isPart_anyOf (cs : List Condition) : (anyOf cs).IsPart := by
  rcases anyOf_cases cs with ⟨c, rfl⟩ | h
  · rfl
  · rw [h]
    rfl

theorem flatMap_conjuncts {parts : List Predicate} (h : ∀ part ∈ parts, part.IsPart) :
    parts.flatMap conjuncts = parts := by
  induction parts with
  | nil => rfl
  | cons part rest ih =>
    obtain ⟨hpart, hrest⟩ := List.forall_mem_cons.mp h
    rw [List.flatMap_cons, hpart, ih hrest, List.singleton_append]

/-- Parts that are no conjunctions themselves are the parts of their conjunction. -/
theorem conjuncts_mkAll {parts : List Predicate} (h : ∀ part ∈ parts, part.IsPart) :
    (mkAll parts).conjuncts = parts := by
  rw [mkAll, flatMap_conjuncts h]
  split
  · rfl
  · exact h _ List.mem_cons_self
  · rfl

theorem mkAll_and {parts : List Predicate} (h : ∀ part ∈ parts, part.IsPart)
    (p : Predicate) : (mkAll parts).and p = mkAll (parts ++ [p]) := by
  have hflat : [mkAll parts, p].flatMap conjuncts = (parts ++ [p]).flatMap conjuncts := by
    rw [List.flatMap_cons, List.flatMap_append, conjuncts_mkAll h, flatMap_conjuncts h]
  unfold and
  rw [mkAll, hflat, ← mkAll]

theorem isDisjunction_anyOf {cs : List Condition} (h : ∀ c ∈ cs, c.holdsOf .null = false) :
    (anyOf cs).IsDisjunction :=
  isDisjunction_mkAny fun part hpart ↦ by
    obtain ⟨c, hc, rfl⟩ := List.mem_map.mp hpart
    exact isDisjunction_leaf (h c hc)

/-- A predicate asks for one of several conditions on a path. -/
def AsksOf (path : String) (p : Predicate) : Prop :=
  ∃ cs, (∀ c ∈ cs, c.path = path) ∧ p = anyOf cs

end Predicate

theorem exists_of_compileValue {kind : Option FieldKind} {path value : String} {p : Predicate}
    (h : compileValue kind path value = some p) : ∃ c, c.path = path ∧ p = .leaf c := by
  unfold compileValue at h
  split at h
  · exact absurd h nofun
  -- Every kind either compiles to nothing or compares what stands at the path.
  · split at h <;> (try split at h) <;> (try split at h) <;>
      first
      | exact ⟨_, rfl, (Option.some.inj h).symm⟩
      | cases h

theorem exists_of_compileAlternatives (kind : Option FieldKind) (path value : String) :
    ∃ cs : List Condition, (∀ c ∈ cs, c.path = path) ∧
      compileAlternatives kind path value = cs.map .leaf := by
  have hfilter : ∀ parts : List (List Char), ∃ cs : List Condition, (∀ c ∈ cs, c.path = path) ∧
      parts.filterMap (fun part ↦ compileValue kind path (String.ofList part)) = cs.map .leaf := by
    intro parts
    induction parts with
    | nil => exact ⟨[], nofun, rfl⟩
    | cons part rest ih =>
      obtain ⟨cs, hpaths, hrest⟩ := ih
      rw [List.filterMap_cons]
      cases hvalue : compileValue kind path (String.ofList part) with
      | none => exact ⟨cs, hpaths, hrest⟩
      | some p =>
        obtain ⟨c, hc, rfl⟩ := exists_of_compileValue hvalue
        exact ⟨c :: cs, List.forall_mem_cons.mpr ⟨hc, hpaths⟩, congrArg _ hrest⟩
  exact hfilter _

/-! ## Parts -/

/-- A part of one side of a query, and whether it stands on its own. -/
structure Part where
  predicate : Predicate
  apart : Bool

namespace Part

/-- The predicates of the parts that form the conjunction. -/
def joint (parts : List Part) : List Predicate :=
  (parts.filter fun part ↦ !part.apart).map predicate

/-- The predicates of the parts that stand on their own. -/
def alone (parts : List Part) : List Predicate := (parts.filter apart).map predicate

theorem mem_joint {parts : List Part} {p : Predicate} : p ∈ joint parts ↔ ⟨p, false⟩ ∈ parts := by
  rw [joint, List.mem_map]
  constructor
  · rintro ⟨⟨_, apart⟩, hpart, rfl⟩
    obtain ⟨hmem, hjoint⟩ := List.mem_filter.mp hpart
    cases apart with
    | false => exact hmem
    | true => exact absurd hjoint Bool.false_ne_true
  · exact fun h ↦ ⟨_, List.mem_filter.mpr ⟨h, rfl⟩, rfl⟩

theorem mem_alone {parts : List Part} {p : Predicate} : p ∈ alone parts ↔ ⟨p, true⟩ ∈ parts := by
  rw [alone, List.mem_map]
  constructor
  · rintro ⟨⟨_, apart⟩, hpart, rfl⟩
    obtain ⟨hmem, halone⟩ := List.mem_filter.mp hpart
    cases apart with
    | false => exact absurd halone Bool.false_ne_true
    | true => exact hmem
  · exact fun h ↦ ⟨_, List.mem_filter.mpr ⟨h, rfl⟩, rfl⟩

theorem joint_append (parts others : List Part) :
    joint (parts ++ others) = joint parts ++ joint others := by
  rw [joint, List.filter_append, List.map_append]
  rfl

theorem alone_append (parts others : List Part) :
    alone (parts ++ others) = alone parts ++ alone others := by
  rw [alone, List.filter_append, List.map_append]
  rfl

end Part

def Contribution.parts (apart : Bool) : Contribution → List Part
  | .nothing => []
  | .joined p => [⟨p, false⟩]
  | .single p => [⟨p, apart⟩]

def keyParts (mode : FilterMode) (kind : FieldKind) (manyToMany : Bool) (key : String)
    (values : List String) : List Part :=
  values.zipIdx.flatMap fun (value, index) ↦
    (contribution mode (some kind) key value).parts (manyToMany && 0 < index)

/-- The parts that the parameters of a request make of one side of its query. -/
def Parameters.parts (p : Parameters) (r : Registry) (m : Model) (mode : FilterMode) : List Part :=
  p.filters.flatMap fun (key, values) ↦
    match r.filterKind? m key with
    | none => []
    | some kind => keyParts mode kind (m.isManyToMany (pathRoot key)) key values

namespace PredicateList

/-- The predicates that several parts make. -/
def ofParts (parts : List Part) : PredicateList where
  primary := .mkAll (Part.joint parts)
  auxiliary := Part.alone parts

theorem ofParts_nil : ofParts [] = {} := rfl

theorem contribute_ofParts {parts : List Part}
    (h : ∀ part ∈ parts, part.predicate.IsPart) (apart : Bool)
    (c : Contribution) : (ofParts parts).contribute apart c = ofParts (parts ++ c.parts apart) := by
  have hjoint : ∀ p ∈ Part.joint parts, p.IsPart := fun p hp ↦ h _ (Part.mem_joint.mp hp)
  have hjoin : ∀ p, (ofParts parts).join p = ofParts (parts ++ [⟨p, false⟩]) := fun p ↦ by
    simp only [ofParts, join, Predicate.mkAll_and hjoint, Part.joint_append, Part.alone_append]
    simp [Part.joint, Part.alone]
  have happend : ∀ p, (ofParts parts).append p = ofParts (parts ++ [⟨p, true⟩]) := fun p ↦ by
    simp only [ofParts, append, Part.joint_append, Part.alone_append]
    simp [Part.joint, Part.alone]
  cases c with
  | nothing => rw [contribute, Contribution.parts, List.append_nil]
  | joined p => exact hjoin p
  | single p =>
    cases apart with
    | false => exact hjoin p
    | true => exact happend p

/-- Steps that append the parts of an item each, in sequence. The parts so far never merge, which is
what lets the next ones be appended. -/
theorem foldl_ofParts {α : Type} {step : PredicateList → α → PredicateList} {f : α → List Part}
    {items : List α}
    (hparts : ∀ item ∈ items, ∀ part ∈ f item, part.predicate.IsPart)
    (hstep : ∀ parts : List Part,
      (∀ part ∈ parts, part.predicate.IsPart) →
        ∀ item ∈ items, step (ofParts parts) item = ofParts (parts ++ f item))
    {parts : List Part} (h : ∀ part ∈ parts, part.predicate.IsPart) :
    items.foldl step (ofParts parts) = ofParts (parts ++ items.flatMap f) := by
  induction items generalizing parts with
  | nil => rw [List.foldl_nil, List.flatMap_nil, List.append_nil]
  | cons item rest ih =>
    have hitem : ∀ part ∈ parts ++ f item, part.predicate.IsPart :=
      fun part hpart ↦ (List.mem_append.mp hpart).elim (h part)
        (hparts item List.mem_cons_self part)
    rw [List.foldl_cons, hstep parts h item List.mem_cons_self, List.flatMap_cons,
      ← List.append_assoc]
    exact ih (fun item hmem ↦ hparts item (List.mem_cons_of_mem _ hmem))
      (fun parts h item hmem ↦ hstep parts h item (List.mem_cons_of_mem _ hmem)) hitem

end PredicateList

/-! ## What a value contributes -/

theorem Predicate.AsksOf.isPart {path : String} {p : Predicate} (h : p.AsksOf path) :
    p.IsPart := by
  obtain ⟨cs, -, rfl⟩ := h
  exact isPart_anyOf cs

theorem Predicate.asksOf_leaf {path : String} {c : Condition} (h : c.path = path) :
    (leaf c).AsksOf path :=
  ⟨[c], List.forall_mem_singleton.mpr h, (anyOf_singleton c).symm⟩

theorem asksOf_mkAny_compileAlternatives (kind : Option FieldKind) (key value : String) :
    (Predicate.mkAny (compileAlternatives kind key value)).AsksOf key := by
  obtain ⟨cs, hpaths, hcs⟩ := exists_of_compileAlternatives kind key value
  exact ⟨cs, hpaths, by rw [hcs, Predicate.anyOf]⟩

theorem compileValue_empty (kind : Option FieldKind) (key : String) :
    compileValue kind key "" = none := by
  have hempty : (key.isEmpty || ("" : String).isEmpty) = true := by
    rw [String.isEmpty_iff.mpr rfl, Bool.or_true]
  unfold compileValue
  rw [if_pos hempty]

theorem compileAlternatives_eq_toList {value : String} (h : alternativeMark ∉ value.toList)
    (kind : Option FieldKind) (key : String) :
    compileAlternatives kind key value = (compileValue kind key value).toList := by
  by_cases hempty : value.toList = []
  · obtain rfl := String.toList_eq_nil_iff.mp hempty
    rw [compileValue_empty]
    rfl
  · have hpart : [value.toList].filter (fun part ↦ !part.isEmpty) = [value.toList] :=
      List.filter_cons_of_pos (by simpa using hempty)
    rw [compileAlternatives, Text.splitOn_eq_singleton h, hpart, List.filterMap_cons,
      List.filterMap_nil, String.ofList_toList]
    cases compileValue kind key value <;> rfl

section Contribution

variable {kind : Option FieldKind} {key value : String}

/-- A value that is not marked selects by its alternatives. -/
theorem contribution_filter (hmark : value.toList.head? ≠ some negationMark)
    (hne : compileAlternatives kind key value ≠ []) :
    contribution .filter kind key value =
      if value.toList.contains alternativeMark then
        .joined (.mkAny (compileAlternatives kind key value))
      else .single (.mkAny (compileAlternatives kind key value)) := by
  unfold contribution
  split
  · split
    · contradiction
    · next hnil => exact absurd hnil hne
    · rfl
  -- Without a comma there is one alternative, the compiled value, and it is its own disjunction.
  · next hcomma =>
    have hfree : alternativeMark ∉ value.toList := by simpa using hcomma
    have halternatives := compileAlternatives_eq_toList hfree kind key
    cases hvalue : compileValue kind key value with
    | none => exact absurd (halternatives.trans (by rw [hvalue]; rfl)) hne
    | some p =>
      obtain ⟨c, -, rfl⟩ := exists_of_compileValue hvalue
      rw [halternatives, hvalue]
      cases hchars : value.toList with
      | nil =>
        rw [String.toList_eq_nil_iff.mp hchars, compileValue_empty] at hvalue
        exact absurd hvalue nofun
      | cons first rest =>
        have hfirst : first ≠ negationMark := fun e ↦ hmark (by rw [hchars, e]; rfl)
        dsimp only
        rw [if_neg hfirst]
        rfl

theorem contribution_filter_plain (hcomma : alternativeMark ∉ value.toList)
    (hmark : value.toList.head? ≠ some negationMark) {p : Predicate}
    (hvalue : compileValue kind key value = some p) :
    contribution .filter kind key value = .single p := by
  have halternatives : compileAlternatives kind key value = [p] := by
    rw [compileAlternatives_eq_toList hcomma, hvalue, Option.toList_some]
  obtain ⟨c, -, rfl⟩ := exists_of_compileValue hvalue
  rw [contribution_filter hmark (halternatives ▸ List.cons_ne_nil _ _), halternatives,
    if_neg (by simpa using hcomma)]
  rfl

theorem contribution_exclude_of_unmarked (hmark : value.toList.head? ≠ some negationMark) :
    contribution .exclude kind key value = .nothing := by
  unfold contribution
  split
  · rfl
  · cases hchars : value.toList with
    | nil => rfl
    | cons first rest =>
      have hfirst : first ≠ negationMark := fun e ↦ hmark (by rw [hchars, e]; rfl)
      dsimp only
      rw [if_neg hfirst]

theorem contribution_exclude_marked (h : alternativeMark ∉ value.toList) {p : Predicate}
    (hvalue : compileValue kind key value = some p) :
    contribution .exclude kind key ("!" ++ value) = .single p := by
  have hchars : ("!" ++ value).toList = negationMark :: value.toList := by
    rw [String.toList_append]
    rfl
  have hfree : ("!" ++ value).toList.contains alternativeMark = false := by
    rw [hchars]
    simpa [negationMark, alternativeMark] using h
  unfold contribution
  rw [hfree, if_neg Bool.false_ne_true, hchars]
  dsimp only
  rw [if_pos rfl, String.ofList_toList, hvalue]

/-- A value makes a single condition, which may stand on its own, or a disjunction that selects. -/
theorem mem_parts_contribution {mode : FilterMode} {apart : Bool} {part : Part}
    (h : part ∈ (contribution mode kind key value).parts apart) :
    (∃ c, c.path = key ∧ part = ⟨.leaf c, apart⟩) ∨
      mode = .filter ∧ part = ⟨.mkAny (compileAlternatives kind key value), false⟩ := by
  have hsingle : ∀ {value : String} {p : Predicate}, compileValue kind key value = some p →
      part ∈ (Contribution.single p).parts apart → ∃ c, c.path = key ∧ part = ⟨.leaf c, apart⟩ := by
    intro value p hvalue h
    obtain ⟨c, hpath, rfl⟩ := exists_of_compileValue hvalue
    exact ⟨c, hpath, List.mem_singleton.mp h⟩
  unfold contribution at h
  split at h
  · split at h
    · exact absurd h List.not_mem_nil
    · exact absurd h List.not_mem_nil
    · exact .inr ⟨rfl, List.mem_singleton.mp h⟩
  · split at h <;> (try split at h) <;> dsimp only at h <;> (try split at h) <;>
      first
      | exact absurd h List.not_mem_nil
      | exact .inl (hsingle (by assumption) h)

theorem asksOf_of_mem_parts {mode : FilterMode} {apart : Bool} {part : Part}
    (h : part ∈ (contribution mode kind key value).parts apart) : part.predicate.AsksOf key := by
  rcases mem_parts_contribution h with ⟨c, hpath, rfl⟩ | ⟨-, rfl⟩
  · exact Predicate.asksOf_leaf hpath
  · exact asksOf_mkAny_compileAlternatives kind key value

end Contribution

/-! ## What parameters are compiled to -/

theorem mem_keyParts {mode : FilterMode} {kind : FieldKind} {manyToMany : Bool} {key : String}
    {values : List String} {part : Part} :
    part ∈ keyParts mode kind manyToMany key values ↔ ∃ value index, values[index]? = some value ∧
      part ∈ (contribution mode (some kind) key value).parts (manyToMany && 0 < index) := by
  rw [keyParts, List.mem_flatMap, Prod.exists]
  simp only [List.mem_zipIdx_iff_getElem?]

namespace Parameters

variable {p : Parameters} {r : Registry} {m : Model} {mode : FilterMode}

theorem mem_parts {part : Part} :
    part ∈ p.parts r m mode ↔ ∃ key values kind, (key, values) ∈ p.filters ∧
      r.filterKind? m key = some kind ∧
      part ∈ keyParts mode kind (m.isManyToMany (pathRoot key)) key values := by
  rw [parts, List.mem_flatMap, Prod.exists]
  refine exists_congr fun key ↦ exists_congr fun values ↦ ?_
  dsimp only
  cases r.filterKind? m key with
  | none => simp
  | some kind => simp

theorem exists_of_mem_parts {part : Part} (h : part ∈ p.parts r m mode) :
    ∃ key values, (key, values) ∈ p.filters ∧ part.predicate.AsksOf key := by
  obtain ⟨key, values, kind, hfilter, -, hpart⟩ := mem_parts.mp h
  obtain ⟨value, index, -, hpart⟩ := mem_keyParts.mp hpart
  exact ⟨key, values, hfilter, asksOf_of_mem_parts hpart⟩

end Parameters

theorem PredicateList.contributeValues_ofParts {mode : FilterMode} {kind : FieldKind}
    {manyToMany : Bool} {key : String} {values : List String} {parts : List Part}
    (h : ∀ part ∈ parts, part.predicate.IsPart) :
    (ofParts parts).contributeValues mode (some kind) manyToMany key values
      = ofParts (parts ++ keyParts mode kind manyToMany key values) := by
  rw [contributeValues, keyParts]
  exact foldl_ofParts (fun _ _ part hpart ↦ (asksOf_of_mem_parts hpart).isPart)
    (fun parts hparts _ _ ↦ contribute_ofParts hparts _ _) h

/-- Parameters are compiled to what their parts make. -/
theorem compileParameters_eq_ofParts (p : Parameters) (r : Registry) (m : Model)
    (mode : FilterMode) :
    compileParameters p r m mode = .ofParts (p.parts r m mode) := by
  rw [compileParameters, Parameters.parts, ← PredicateList.ofParts_nil]
  refine PredicateList.foldl_ofParts (fun (key, values) _ part hpart ↦ ?_)
    (fun parts hparts (key, values) _ ↦ ?_) (fun _ h ↦ absurd h List.not_mem_nil)
  · cases hkind : r.filterKind? m key with
    | none =>
      simp only [hkind] at hpart
      exact absurd hpart List.not_mem_nil
    | some kind =>
      simp only [hkind] at hpart
      obtain ⟨value, index, -, hpart⟩ := mem_keyParts.mp hpart
      exact (asksOf_of_mem_parts hpart).isPart
  · dsimp only
    cases r.filterKind? m key with
    | none => rw [List.append_nil]
    | some kind => exact PredicateList.contributeValues_ofParts hparts

end RowAccess

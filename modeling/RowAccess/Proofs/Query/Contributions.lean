import Mathlib.Data.List.Basic
import RowAccess.Proofs.Query.Exclusion
import RowAccess.Proofs.Query.Repetition
import RowAccess.Proofs.Query.Typing

/-!
# Every value contributes once

Compilation gathers the values of a request by key, skips keys and values, merges what is left into
a conjunction and sets some of it apart. Here the outcome is read off the pairs of the request. They
are listed key by key, each value with its place among the values of its key, and for each of them
it is said by itself what it asks for (`Registry.asked?`) and whether it stands alone. The compiled
query is what they ask for, in this order: those that stand alone one by one, and the others as one
conjunction.

A value with commas is cut at them, and asks for one of the conditions that its pieces ask for by
themselves (`listedConditions`). No predicate merges with another one, so what is disjoined and
conjoined here is listed as it stands (`Predicate.oneOf?`, `Predicate.allOf`).

The place of a value counts the values before it whether or not they ask for something. So a value
can stand alone where nothing precedes it in the conjunction.
-/

namespace RowAccess

/-! ## The values of a request -/

/-- The values that a key has in a request, in their order. -/
def valuesOf (pairs : List (String × String)) (key : String) : List String :=
  (pairs.filter fun pair ↦ pair.1 == key).map Prod.snd

/-- A value of a request, with its key and its place among the values of this key. -/
structure Occurrence where
  key : String
  value : String
  index : Nat

namespace Occurrence

/-- The values of a key, at their places. -/
def ofValues (key : String) (values : List String) : List Occurrence :=
  values.zipIdx.map fun entry ↦ ⟨key, entry.1, entry.2⟩

/-- The values of a request, key by key in the order in which the keys appear first. -/
def ofPairs (pairs : List (String × String)) : List Occurrence :=
  (pairs.map Prod.fst).eraseDups.flatMap fun key ↦ ofValues key (valuesOf pairs key)

def pair (o : Occurrence) : String × String := (o.key, o.value)

/-- Whether what a value asks for stands on its own. -/
def standsAlone (o : Occurrence) (m : Model) : Bool :=
  !hasAlternatives o.value && (m.isManyToMany (pathRoot o.key) && 0 < o.index)

end Occurrence

/-- Whether a value excludes rows. -/
def isMarked (value : String) : Bool := value.toList.head? == some '!'

/-- The conditions that a value lists between its commas. A piece without characters does not
count, nor does one that is compiled to nothing. -/
def listedConditions (kind : FieldKind) (key value : String) : List Predicate :=
  ((value.toList.splitOn ',').filter (· ≠ [])).filterMap
    fun piece ↦ compileValue (some kind) key (String.ofList piece)

namespace Predicate

/-- One of several predicates, if there are any; a single one needs no disjunction. -/
def oneOf? : List Predicate → Option Predicate
  | [] => none
  | [p] => some p
  | p :: q :: rest => some (.any (p :: q :: rest))

/-- All of several predicates; a single one needs no conjunction. -/
def allOf : List Predicate → Predicate
  | [] => .always
  | [p] => p
  | p :: q :: rest => .all (p :: q :: rest)

end Predicate

/-- What a value of a key asks one side of a query for, if the key has a kind: a value with commas
for one of the conditions that it lists, and any other one for a single condition, on the side that
its mark tells. -/
def askedAs? (mode : FilterMode) (kind : FieldKind) (key value : String) : Option Predicate :=
  match mode, hasAlternatives value, isMarked value with
  | .filter, true, _ => Predicate.oneOf? (listedConditions kind key value)
  | .filter, false, false => compileValue (some kind) key value
  | .exclude, false, true => compileValue (some kind) key (String.ofList value.toList.tail)
  | _, _, _ => none

/-- What a value of a key asks one side of a query on a model for. -/
def Registry.asked? (r : Registry) (m : Model) (mode : FilterMode) (key value : String) :
    Option Predicate :=
  if Parameters.isReserved key then none
  else (r.filterKind? m key).bind fun kind ↦ askedAs? mode kind key value

/-- The part that a value makes of one side of a query. -/
def Occurrence.part? (o : Occurrence) (r : Registry) (m : Model) (mode : FilterMode) :
    Option Part :=
  (r.asked? m mode o.key o.value).map fun p ↦ ⟨p, o.standsAlone m⟩

/-- A list is grouped by keys without loss: each key, taken once, has its own items. -/
theorem flatMap_filter_keys_perm {α : Type} (f : α → String) : ∀ items : List α,
    ((items.map f).eraseDups.flatMap fun key ↦ items.filter fun item ↦ f item == key).Perm items
  | [] => .refl _
  | first :: rest => by
    -- The items of the first key come first, and all others have another key.
    have hkeys : ((first :: rest).map f).eraseDups
        = f first :: ((rest.filter fun item ↦ !(f item == f first)).map f).eraseDups := by
      rw [List.map_cons, List.eraseDups_cons, List.filter_map]
      rfl
    have hrest : (first :: rest).filter (fun item ↦ !(f item == f first))
        = rest.filter fun item ↦ !(f item == f first) := List.filter_cons_of_neg (by simp)
    have hothers : ∀ key ∈ ((rest.filter fun item ↦ !(f item == f first)).map f).eraseDups,
        (first :: rest).filter (fun item ↦ f item == key)
          = (rest.filter fun item ↦ !(f item == f first)).filter fun item ↦ f item == key := by
      intro key hkey
      obtain ⟨other, hother, rfl⟩ := List.mem_map.mp (List.mem_eraseDups.mp hkey)
      have hne : f other ≠ f first := by simpa using (List.mem_filter.mp hother).2
      rw [← hrest, List.filter_filter]
      refine List.filter_congr fun item _ ↦ ?_
      by_cases h : f item = f other
      · simp [h, hne]
      · simp [h]
    rw [hkeys, List.flatMap_cons, List.flatMap_congr hothers]
    refine ((flatMap_filter_keys_perm f _).append_left _).trans ?_
    rw [← hrest]
    exact List.filter_append_perm _ _
termination_by items => items.length
decreasing_by exact Nat.lt_succ_of_le (List.length_filter_le _ _)

/-- The alternatives of a value are the conditions that it lists. -/
theorem compileAlternatives_eq (kind : FieldKind) (key value : String) :
    compileAlternatives (some kind) key value = listedConditions kind key value := by
  have hpiece : ∀ piece : List Char, (!piece.isEmpty) = decide (piece ≠ []) := by
    intro piece
    cases piece <;> rfl
  rw [compileAlternatives, listedConditions, Text.splitOn_eq]
  simp only [hpiece]
  rfl

namespace Predicate

theorem oneOf?_map_leaf (c : Condition) (cs : List Condition) :
    oneOf? ((c :: cs).map leaf) = some (anyOf (c :: cs)) := by
  cases cs with
  | nil => rfl
  | cons d cs =>
    rcases anyOf_cases (c :: d :: cs) with ⟨e, he⟩ | hany
    · exact absurd (List.cons.inj he).2 (List.cons_ne_nil _ _)
    · rw [hany]
      rfl

/-- Parts are conjoined without merging. -/
theorem mkAll_eq_allOf {parts : List Predicate} (h : ∀ part ∈ parts, part.IsPart) :
    mkAll parts = allOf parts := by
  rw [mkAll, flatMap_conjuncts h]
  rcases parts with _ | ⟨p, _ | ⟨q, rest⟩⟩ <;> rfl

end Predicate

/-- A value contributes what it asks for. -/
theorem parts_contribution (mode : FilterMode) (kind : FieldKind) (key value : String)
    (apart : Bool) :
    (contribution mode (some kind) key value).parts apart
      = ((askedAs? mode kind key value).map fun p ↦
          (⟨p, !hasAlternatives value && apart⟩ : Part)).toList := by
  unfold contribution askedAs? isMarked hasAlternatives negationMark
  cases value.toList.contains alternativeMark with
  | true =>
    cases mode with
    | exclude => rfl
    | filter =>
      obtain ⟨cs, -, hcs⟩ := exists_of_compileAlternatives (some kind) key value
      dsimp only
      rw [← compileAlternatives_eq, hcs]
      cases cs with
      | nil => rfl
      | cons c cs =>
        rw [Predicate.oneOf?_map_leaf]
        rfl
  | false =>
    cases hchars : value.toList with
    | nil =>
      rw [String.toList_eq_nil_iff.mp hchars, compileValue_empty]
      cases mode <;> rfl
    | cons first rest =>
      -- Only the mark decides which side the value is compiled for.
      by_cases hmark : first = '!'
      · cases mode with
        | filter => simp [hmark, Contribution.parts]
        | exclude =>
          simp only [hmark, List.head?_cons, beq_self_eq_true, if_true, List.tail_cons]
          cases compileValue (some kind) key (String.ofList rest) <;> rfl
      · have hunmarked : (some first == some '!') = false := by simpa using hmark
        cases mode with
        | exclude => simp [hmark, Contribution.parts, hunmarked]
        | filter =>
          simp only [hmark, List.head?_cons, hunmarked, if_false]
          cases compileValue (some kind) key value <;> rfl

namespace Occurrence

theorem map_pair_ofValues (pairs : List (String × String)) (key : String) :
    (ofValues key (valuesOf pairs key)).map pair = pairs.filter fun pair ↦ pair.1 == key := by
  have hpair : ∀ entry ∈ pairs.filter fun pair ↦ pair.1 == key, (key, entry.2) = id entry := by
    intro entry hentry
    have hkey : entry.1 = key := by simpa using (List.mem_filter.mp hentry).2
    exact Prod.ext hkey.symm rfl
  calc (ofValues key (valuesOf pairs key)).map pair
      = ((valuesOf pairs key).zipIdx.map Prod.fst).map (Prod.mk key) := by
        rw [ofValues, List.map_map, List.map_map]
        rfl
    _ = (pairs.filter fun pair ↦ pair.1 == key).map fun entry ↦ (key, entry.2) := by
        rw [List.zipIdx_map_fst, valuesOf, List.map_map]
        rfl
    _ = pairs.filter fun pair ↦ pair.1 == key := by
        rw [List.map_congr_left hpair, List.map_id]

theorem map_pair_ofPairs (pairs : List (String × String)) :
    ((ofPairs pairs).map pair).Perm pairs := by
  rw [ofPairs, List.map_flatMap]
  simp only [map_pair_ofValues]
  exact flatMap_filter_keys_perm Prod.fst pairs

variable {r : Registry} {m : Model} {mode : FilterMode}

theorem keyParts_eq {key : String} {kind : FieldKind} (hkey : Parameters.isReserved key = false)
    (hkind : r.filterKind? m key = some kind) (values : List String) :
    keyParts mode kind (m.isManyToMany (pathRoot key)) key values
      = (ofValues key values).filterMap fun o ↦ o.part? r m mode := by
  rw [keyParts, ofValues, List.filterMap_map, List.filterMap_eq_flatMap_toList]
  refine List.flatMap_congr ?_
  rintro ⟨value, index⟩ -
  rw [Function.comp_apply, part?, Registry.asked?, hkey, if_neg Bool.false_ne_true, hkind,
    Option.bind_some]
  exact parts_contribution mode kind key value _

theorem filterMap_part?_eq_nil {key : String}
    (h : Parameters.isReserved key = true ∨ r.filterKind? m key = none) (values : List String) :
    ((ofValues key values).filterMap fun o ↦ o.part? r m mode) = [] := by
  rw [ofValues, List.filterMap_map, List.filterMap_eq_nil_iff]
  rintro ⟨value, index⟩ -
  rw [Function.comp_apply, part?, Registry.asked?]
  rcases h with hkey | hkind
  · rw [hkey, if_pos rfl, Option.map_none]
  · rw [hkind, Option.bind_none, ite_self, Option.map_none]

theorem parts_ofPairs (pairs : List (String × String)) :
    (Parameters.ofPairs pairs).parts r m mode
      = (ofPairs pairs).filterMap fun o ↦ o.part? r m mode := by
  rw [Parameters.parts, Parameters.filters_ofPairs, ofPairs, List.filterMap_flatMap,
    List.flatMap_map]
  induction (pairs.map Prod.fst).eraseDups with
  | nil => rfl
  | cons key keys ih =>
    rw [List.flatMap_cons, ← ih]
    cases hkey : Parameters.isReserved key with
    | true =>
      rw [List.filter_cons_of_neg (by simp [hkey]), filterMap_part?_eq_nil (.inl hkey),
        List.nil_append]
    | false =>
      rw [List.filter_cons_of_pos (by simp [hkey]), List.flatMap_cons, Parameters.all_ofPairs,
        ← valuesOf]
      refine congrArg (· ++ _) ?_
      dsimp only
      cases hkind : r.filterKind? m key with
      | none => exact (filterMap_part?_eq_nil (.inr hkind) _).symm
      | some kind => exact keyParts_eq hkey hkind _

theorem filter_filterMap_part? (test : Bool → Bool) (os : List Occurrence) :
    ((os.filterMap fun o ↦ o.part? r m mode).filter fun part ↦ test part.apart).map Part.predicate
      = (os.filter fun o ↦ test (o.standsAlone m)).filterMap
          fun o ↦ r.asked? m mode o.key o.value := by
  induction os with
  | nil => rfl
  | cons o os ih =>
    have hpart : o.part? r m mode
        = (r.asked? m mode o.key o.value).map fun p ↦ ⟨p, o.standsAlone m⟩ := rfl
    cases hasked : r.asked? m mode o.key o.value with
    | none => cases htest : test (o.standsAlone m) <;> simp [hpart, hasked, htest, ih]
    | some p => cases htest : test (o.standsAlone m) <;> simp [hpart, hasked, htest, ih]

end Occurrence

theorem asked?_filter_or_exclude (r : Registry) (m : Model) (key value : String) :
    r.asked? m .filter key value = none ∨ r.asked? m .exclude key value = none := by
  unfold Registry.asked? askedAs?
  cases hasAlternatives value with
  | true => right; cases r.filterKind? m key <;> simp
  | false =>
    cases isMarked value with
    | true => left; cases r.filterKind? m key <;> simp
    | false => right; cases r.filterKind? m key <;> simp

/-! ## The trees that are compiled -/

namespace Predicate

/-- A tree stands in a predicate: it is the predicate, or stands in one of its parts. -/
inductive Within (q : Predicate) : Predicate → Prop
  | itself : Within q q
  | all {part : Predicate} {parts : List Predicate} (hpart : part ∈ parts) (h : Within q part) :
    Within q (.all parts)
  | any {part : Predicate} {parts : List Predicate} (hpart : part ∈ parts) (h : Within q part) :
    Within q (.any parts)
  | not {part : Predicate} (h : Within q part) : Within q (.not part)

theorem within_of_mem_conditions {c : Condition} {p : Predicate} (h : c ∈ p.conditions) :
    (leaf c).Within p := by
  induction p using treeInduction with
  | always =>
    rw [conditions] at h
    exact absurd h List.not_mem_nil
  | leaf d =>
    rw [conditions, List.mem_singleton] at h
    exact h ▸ .itself
  | all parts ih =>
    rw [conditions_all] at h
    obtain ⟨part, hpart, hmem⟩ := List.mem_flatMap.mp h
    exact .all hpart (ih part hpart hmem)
  | any parts ih =>
    rw [conditions_any] at h
    obtain ⟨part, hpart, hmem⟩ := List.mem_flatMap.mp h
    exact .any hpart (ih part hpart hmem)
  | not part ih =>
    rw [conditions] at h
    exact .not (ih h)

theorem within_mkAll {parts : List Predicate} (h : ∀ part ∈ parts, part.IsPart) {q : Predicate}
    (hq : q.Within (mkAll parts)) :
    q = .always ∨ (∃ flat, q = .all flat) ∨ ∃ part ∈ parts, q.Within part := by
  rw [mkAll, flatMap_conjuncts h] at hq
  split at hq
  · cases hq with
    | itself => exact .inl rfl
  · exact .inr (.inr ⟨_, List.mem_cons_self, hq⟩)
  · cases hq with
    | itself => exact .inr (.inl ⟨_, rfl⟩)
    | all hpart hwithin => exact .inr (.inr ⟨_, hpart, hwithin⟩)

theorem within_leaf {c : Condition} {q : Predicate} (hq : q.Within (leaf c)) : q = leaf c := by
  cases hq with
  | itself => rfl

theorem within_anyOf {cs : List Condition} {q : Predicate} (hq : q.Within (anyOf cs)) :
    (∃ flat, q = .any flat) ∨ ∃ c ∈ cs, q = leaf c := by
  rcases anyOf_cases cs with ⟨c, rfl⟩ | h
  · exact .inr ⟨c, List.mem_singleton_self c, within_leaf hq⟩
  · rw [h] at hq
    cases hq with
    | itself => exact .inl ⟨_, rfl⟩
    | any hpart hwithin =>
      obtain ⟨c, hc, rfl⟩ := List.mem_map.mp hpart
      exact .inr ⟨c, hc, within_leaf hwithin⟩

end Predicate

def PredicateList.predicates (l : PredicateList) : List Predicate := l.primary :: l.auxiliary

section Compiled

variable {pairs : List (String × String)} {r : Registry} {m : Model} {mode : FilterMode}
  {p q : Predicate}

theorem isPart_of_mem_joint {params : Parameters} (hp : p ∈ Part.joint (params.parts r m mode)) :
    p.IsPart := by
  obtain ⟨_, _, -, hasks⟩ := Parameters.exists_of_mem_parts (Part.mem_joint.mp hp)
  exact hasks.isPart

theorem within_compiled {params : Parameters}
    (hp : p ∈ (compileParameters params r m mode).predicates) (hq : q.Within p) :
    q = .always ∨ (∃ flat, q = .all flat) ∨
      ∃ part ∈ params.parts r m mode, q.Within part.predicate := by
  rw [compileParameters_eq_ofParts] at hp
  rcases List.mem_cons.mp hp with rfl | halone
  · rcases Predicate.within_mkAll (fun _ ↦ isPart_of_mem_joint) hq with
      halways | hall | ⟨part, hpart, hwithin⟩
    · exact .inl halways
    · exact .inr (.inl hall)
    · exact .inr (.inr ⟨_, Part.mem_joint.mp hpart, hwithin⟩)
  · exact .inr (.inr ⟨_, Part.mem_alone.mp halone, hq⟩)

theorem exists_key_of_mem_parts {part : Part}
    (h : part ∈ (Parameters.ofPairs pairs).parts r m mode) : ∃ key value kind,
      (key, value) ∈ pairs ∧ Parameters.isReserved key = false ∧
        r.filterKind? m key = some kind ∧ part.predicate.AsksOf key := by
  obtain ⟨key, values, kind, hfilter, hkind, hpart⟩ := Parameters.mem_parts.mp h
  obtain ⟨value, index, hvalue, hpart⟩ := mem_keyParts.mp hpart
  have hpair := Parameters.mem_of_mem_filters hfilter (List.mem_of_getElem? hvalue)
  exact ⟨key, value, kind, hpair, (Parameters.mem_filters.mp hfilter).1, hkind,
    asksOf_of_mem_parts hpart⟩

theorem exists_key_of_mem_conditions
    (hp : p ∈ (compileParameters (.ofPairs pairs) r m mode).predicates)
    {c : Condition} (hc : c ∈ p.conditions) :
    ∃ value kind, (c.path, value) ∈ pairs ∧ Parameters.isReserved c.path = false ∧
      r.filterKind? m c.path = some kind ∧ kind.isRelation = false := by
  rcases within_compiled hp (Predicate.within_of_mem_conditions hc) with
    halways | ⟨_, hall⟩ | ⟨part, hpart, hwithin⟩
  · exact nomatch halways
  · exact nomatch hall
  · obtain ⟨key, value, kind, hpair, hkey, hkind, cs, hpaths, hcs⟩ :=
      exists_key_of_mem_parts hpart
    rw [hcs] at hwithin
    rcases Predicate.within_anyOf hwithin with ⟨_, hany⟩ | ⟨d, hd, hleaf⟩
    · exact nomatch hany
    · obtain rfl := Predicate.leaf.inj hleaf
      rw [hpaths c hd]
      exact ⟨value, kind, hpair, hkey, hkind, Registry.isRelation_of_filterKind? hkind⟩

/-- Nothing is negated in a compiled query. -/
theorem not_within_compiled {params : Parameters}
    (hp : p ∈ (compileParameters params r m mode).predicates) :
    ¬(Predicate.not q).Within p := by
  intro hq
  rcases within_compiled hp hq with halways | ⟨_, hall⟩ | ⟨part, hpart, hwithin⟩
  · exact nomatch halways
  · exact nomatch hall
  · obtain ⟨_, _, -, cs, -, hcs⟩ := Parameters.exists_of_mem_parts hpart
    rw [hcs] at hwithin
    rcases Predicate.within_anyOf hwithin with ⟨_, hany⟩ | ⟨_, -, hleaf⟩
    · exact nomatch hany
    · exact nomatch hleaf

/-- Nothing is disjoined in what excludes. -/
theorem not_within_excluded {params : Parameters}
    (hp : p ∈ (compileParameters params r m .exclude).predicates) {parts : List Predicate} :
    ¬(Predicate.any parts).Within p := by
  intro hq
  rcases within_compiled hp hq with halways | ⟨_, hall⟩ | ⟨part, hpart, hwithin⟩
  · exact nomatch halways
  · exact nomatch hall
  · obtain ⟨c, hleaf⟩ := Parameters.exists_leaf_of_mem_parts hpart
    rw [hleaf] at hwithin
    exact nomatch Predicate.within_leaf hwithin

end Compiled

/-- The values of a request are listed key by key, each once. One side of the query is what they ask
for in this order: all of what does not stand alone, and apart from it what does. So every condition
names a key of the request that has a kind, nothing is negated, only what a value lists between
commas is disjoined and it never excludes, and no value counts for both sides. -/
theorem compileParameters_collects (pairs : List (String × String)) (r : Registry) (m : Model)
    (mode : FilterMode) :
    let os := Occurrence.ofPairs pairs
    let compiled := compileParameters (.ofPairs pairs) r m mode
    compiled.primary
        = .allOf ((os.filter fun o ↦ !o.standsAlone m).filterMap
            fun o ↦ r.asked? m mode o.key o.value) ∧
      compiled.auxiliary
        = (os.filter fun o ↦ o.standsAlone m).filterMap
            (fun o ↦ r.asked? m mode o.key o.value) ∧
      (os.map Occurrence.pair).Perm pairs ∧
      (∀ o ∈ os, r.asked? m .filter o.key o.value = none ∨
        r.asked? m .exclude o.key o.value = none) ∧
      ∀ p ∈ compiled.predicates,
        (∀ c ∈ p.conditions, ∃ value kind, (c.path, value) ∈ pairs ∧
          Parameters.isReserved c.path = false ∧ r.filterKind? m c.path = some kind ∧
          kind.isRelation = false) ∧
        (∀ part, ¬(Predicate.not part).Within p) ∧
        (mode = .exclude → ∀ parts, ¬(Predicate.any parts).Within p) := by
  intro os compiled
  have hparts : (Parameters.ofPairs pairs).parts r m mode
      = os.filterMap fun o ↦ o.part? r m mode := Occurrence.parts_ofPairs pairs
  have hcompiled : compiled = .ofParts (os.filterMap fun o ↦ o.part? r m mode) := by
    rw [← hparts, ← compileParameters_eq_ofParts]
  refine ⟨?_, ?_, Occurrence.map_pair_ofPairs pairs,
    fun o _ ↦ asked?_filter_or_exclude r m o.key o.value, fun p hp ↦
      ⟨fun c hc ↦ exists_key_of_mem_conditions hp hc, fun part ↦ not_within_compiled hp, ?_⟩⟩
  · have hjoint : Part.joint (os.filterMap fun o ↦ o.part? r m mode)
        = (os.filter fun o ↦ !o.standsAlone m).filterMap fun o ↦ r.asked? m mode o.key o.value :=
      Occurrence.filter_filterMap_part? not os
    rw [hcompiled, ← hjoint]
    refine Predicate.mkAll_eq_allOf fun part hpart ↦ ?_
    rw [← hparts] at hpart
    exact isPart_of_mem_joint hpart
  · rw [hcompiled]
    exact Occurrence.filter_filterMap_part? id os
  · rintro rfl parts
    exact not_within_excluded hp

/-- The value without a condition counts as the first one, so the other one stands alone. -/
example : (compileParameters (.ofPairs [("parts__id", ""), ("parts__id", "2")])
    Folders.store.registry Folders.folder .filter).auxiliary
      = [.eq "parts__id" (.text "2")] := rfl

/-- What stands between two commas that follow each other does not count. -/
example : (compileParameters (.ofPairs [("parts__id", "2,,3")])
    Folders.store.registry Folders.folder .filter).primary
      = .any [.eq "parts__id" (.text "2"), .eq "parts__id" (.text "3")] := rfl

end RowAccess

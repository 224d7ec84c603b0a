import RowAccess.Proofs.Query.Agreement
import RowAccess.Proofs.Query.Contributions
import RowAccess.Proofs.Query.Paging

/-!
# A filter and its exclusion

A value selects rows, and the same value behind the mark excludes them. The two are evaluated quite
differently: the one beside the visibility, where related rows may be chosen, the other below a
negation, where none is. A request that asks for nothing else still parts the visible rows in two:
each of them is selected by the value or by the marked value, and by one of them only.

Two things could spoil this. A many-to-many relation that the visibility speaks of would be joined
with the one that the value speaks of, but not with the one that is negated. And a reserved key is
no filter, even if a model has a field of this name; then both requests select all visible rows.
-/

namespace RowAccess

/-! ## Requests that ask for one value -/

section OneValue

variable {before after : List (String × String)} {key value : String} {r : Registry} {m : Model}
  {mode : FilterMode}

/-- A value among pairs that ask for nothing is the only one that makes a part. -/
theorem parts_eq_of_idle
    (h : ∀ pair ∈ before ++ after, r.asked? m mode pair.1 pair.2 = none) (key value : String) :
    ∃ apart, (Parameters.ofPairs (before ++ (key, value) :: after)).parts r m mode
      = ((r.asked? m mode key value).map fun p ↦ (⟨p, apart⟩ : Part)).toList := by
  have hperm := (Occurrence.map_pair_ofPairs (before ++ (key, value) :: after)).trans
    List.perm_middle
  rw [Occurrence.parts_ofPairs]
  -- The value occurs somewhere, and the other occurrences are those of the idle pairs.
  obtain ⟨o, ho, hpair⟩ := List.mem_map.mp (hperm.mem_iff.mpr List.mem_cons_self)
  obtain ⟨preceding, following, hsplit⟩ := List.append_of_mem ho
  rw [hsplit, List.map_append, List.map_cons, hpair] at hperm
  have hothers := (List.perm_middle.symm.trans hperm).cons_inv
  have hidle : ∀ other ∈ preceding ++ following, other.part? r m mode = none := by
    intro other hother
    have hmem : other.pair ∈ before ++ after :=
      hothers.mem_iff.mp (List.map_append ▸ List.mem_map_of_mem hother)
    rw [Occurrence.part?, show r.asked? m mode other.key other.value = none from h _ hmem,
      Option.map_none]
  obtain ⟨hbefore, hafter⟩ := List.forall_mem_append.mp hidle
  obtain ⟨rfl, rfl⟩ := Prod.mk.inj hpair
  refine ⟨o.standsAlone m, ?_⟩
  rw [hsplit, List.filterMap_append, List.filterMap_cons,
    List.filterMap_eq_nil_iff.mpr hbefore, List.filterMap_eq_nil_iff.mpr hafter, Occurrence.part?]
  cases r.asked? m mode o.key o.value <;> rfl

theorem exists_compileParameters_eq
    (h : ∀ pair ∈ before ++ after, r.asked? m mode pair.1 pair.2 = none) (key value : String) :
    ∃ apart, compileParameters (.ofPairs (before ++ (key, value) :: after)) r m mode
      = .ofParts ((r.asked? m mode key value).map fun p ↦ (⟨p, apart⟩ : Part)).toList := by
  obtain ⟨apart, hparts⟩ := parts_eq_of_idle h key value
  exact ⟨apart, by rw [compileParameters_eq_ofParts, hparts]⟩

theorem isMarked_mark (value : String) : isMarked ("!" ++ value) = true := by
  rw [isMarked, String.toList_append]
  rfl

theorem hasAlternatives_mark (value : String) :
    hasAlternatives ("!" ++ value) = hasAlternatives value := by
  rw [hasAlternatives, hasAlternatives, String.toList_append]
  rfl

/-- The filter key of a request has a kind, and its value asks for a single condition; the other
pairs of the request ask for nothing, on neither side. -/
structure AsksOnly (r : Registry) (m : Model) (before after : List (String × String))
    (key value : String) (c : Condition) : Prop where
  isFilter : Parameters.isReserved key = false
  compiled : ∃ kind, r.filterKind? m key = some kind ∧
    compileValue (some kind) key value = some (.leaf c)
  single : hasAlternatives value = false
  unmarked : isMarked value = false
  idle : ∀ mode, ∀ pair ∈ before ++ after, r.asked? m mode pair.1 pair.2 = none

namespace AsksOnly

variable {c : Condition}

theorem asked?_value (h : AsksOnly r m before after key value c) :
    r.asked? m .filter key value = some (.leaf c) ∧ r.asked? m .exclude key value = none := by
  obtain ⟨kind, hkind, hcompiled⟩ := h.compiled
  simp [Registry.asked?, h.isFilter, hkind, askedAs?, h.single, h.unmarked, hcompiled]

theorem asked?_marked (h : AsksOnly r m before after key value c) :
    r.asked? m .filter key ("!" ++ value) = none ∧
      r.asked? m .exclude key ("!" ++ value) = some (.leaf c) := by
  obtain ⟨kind, hkind, hcompiled⟩ := h.compiled
  simp [Registry.asked?, h.isFilter, hkind, askedAs?, hasAlternatives_mark, isMarked_mark, h.single,
    hcompiled]

theorem path_eq (h : AsksOnly r m before after key value c) : c.path = key := by
  obtain ⟨kind, -, hcompiled⟩ := h.compiled
  obtain ⟨d, hpath, hleaf⟩ := exists_of_compileValue hcompiled
  rw [Predicate.leaf.inj hleaf, hpath]

end AsksOnly

end OneValue

theorem Registry.visibleRows_of_keys {pairs others : List (String × String)}
    (h : pairs.map Prod.fst = others.map Prod.fst) (r : Registry) (m : Model)
    (identity : Identity) :
    r.visibleRows m identity (.ofPairs pairs) = r.visibleRows m identity (.ofPairs others) := by
  have hcontains : ∀ key, (Parameters.ofPairs pairs).contains key
      = (Parameters.ofPairs others).contains key := by
    intro key
    have hany : ∀ pairs : List (String × String), (Parameters.ofPairs pairs).contains key
        = (pairs.map Prod.fst).any (key == ·) := fun pairs ↦ by
      rw [Parameters.contains_ofPairs, List.any_map]
      rfl
    rw [hany, hany, h]
  refine visibleRows_congr ?_
  rw [selectsProject, selectsProject, Parameters.selectsProject, Parameters.selectsProject,
    Parameters.selectsProjectBare, Parameters.selectsProjectBare, hcontains, hcontains]

namespace Plan

variable {s : Store} {m : Model} {row : Row} {visibility : Predicate} {c : Condition}

theorem keeps_combine_filter (h : (Predicate.leaf c).Separate m visibility) (apart : Bool) :
    (combine visibility (.ofParts [⟨.leaf c, apart⟩]) {}).steps.all (s.keeps m row)
      = (s.holds m row visibility && s.holds m row (.leaf c)) := by
  have hperm : [(⟨.leaf c, apart⟩ : Part)].Perm ([⟨.leaf c, apart⟩] ++ []) := .refl _
  cases apart with
  | false =>
    rw [keeps_combine_append hperm h fun _ _ _ hd ↦ absurd hd List.not_mem_nil,
      PredicateList.ofParts_nil, keeps_combine_empty, Bool.and_comm]
    exact congrArg _ (Bool.and_true _)
  | true =>
    rw [keeps_combine_append hperm (fun _ hc ↦ absurd hc List.not_mem_nil)
      (fun _ hc ↦ absurd hc List.not_mem_nil), PredicateList.ofParts_nil, keeps_combine_empty,
      Bool.and_comm]
    have hnone : Predicate.mkAll (Part.joint [⟨.leaf c, true⟩]) = .always := rfl
    simp [hnone, Part.alone, s.holds_always]

theorem keeps_combine_exclusion (apart : Bool) :
    (combine visibility {} (.ofParts [⟨.leaf c, apart⟩])).steps.all (s.keeps m row)
      = (s.holds m row visibility && !s.holds m row (.leaf c)) := by
  rw [Bool.eq_iff_iff, keeps_combine_iff (List.forall_mem_singleton.mpr ⟨c, rfl⟩),
    keeps_combine_empty, Bool.and_eq_true, Bool.not_eq_true']
  cases apart <;> simp [Part.joint, Part.alone]

end Plan

/-! ## Both requests -/

namespace AsksOnly

variable {s : Store} {m : Model} {row : Row} {visibility : Predicate}
  {before after : List (String × String)} {key value : String} {c : Condition}

theorem keeps_value (h : AsksOnly s.registry m before after key value c)
    (hseparate : (Predicate.leaf c).Separate m visibility) :
    (s.registry.planUnder m (.ofPairs (before ++ (key, value) :: after)) visibility).steps.all
        (s.keeps m row)
      = (s.holds m row visibility && s.holds m row (.leaf c)) := by
  obtain ⟨hasked, hnone⟩ := h.asked?_value
  obtain ⟨apart, hfilter⟩ := exists_compileParameters_eq (h.idle .filter) key value
  obtain ⟨_, hexclude⟩ := exists_compileParameters_eq (h.idle .exclude) key value
  rw [Registry.planUnder, hfilter, hexclude, hasked, hnone]
  exact Plan.keeps_combine_filter hseparate apart

theorem keeps_marked (h : AsksOnly s.registry m before after key value c) :
    (s.registry.planUnder m (.ofPairs (before ++ (key, "!" ++ value) :: after))
        visibility).steps.all (s.keeps m row)
      = (s.holds m row visibility && !s.holds m row (.leaf c)) := by
  obtain ⟨hnone, hasked⟩ := h.asked?_marked
  obtain ⟨_, hfilter⟩ := exists_compileParameters_eq (h.idle .filter) key ("!" ++ value)
  obtain ⟨apart, hexclude⟩ := exists_compileParameters_eq (h.idle .exclude) key ("!" ++ value)
  rw [Registry.planUnder, hfilter, hexclude, hasked, hnone]
  exact Plan.keeps_combine_exclusion apart

end AsksOnly

/-- A test parts the rows that have passed another one, whatever order each part is brought to. -/
theorem Row.sorted_parts (keys others : List SortKey) (rows : List Row) (passed test : Row → Bool) :
    let kept := Row.sorted keys (rows.filter fun row ↦ passed row && test row)
    let dropped := Row.sorted others (rows.filter fun row ↦ passed row && !test row)
    (kept ++ dropped).Perm (rows.filter passed) ∧ (∀ row ∈ kept, test row = true) ∧
      (∀ row ∈ dropped, test row = false) ∧ ∀ row, ¬(row ∈ kept ∧ row ∈ dropped) := by
  intro kept dropped
  have hkept : ∀ row ∈ kept, test row = true := fun row hrow ↦ by
    have hpassed := (List.mem_filter.mp (Row.mem_sorted.mp hrow)).2
    exact (Bool.and_eq_true_iff.mp hpassed).2
  have hdropped : ∀ row ∈ dropped, test row = false := fun row hrow ↦ by
    have hpassed := (List.mem_filter.mp (Row.mem_sorted.mp hrow)).2
    simpa using (Bool.and_eq_true_iff.mp hpassed).2
  refine ⟨?_, hkept, hdropped, fun row ⟨hmem, hother⟩ ↦ ?_⟩
  · have hparts := List.filter_append_perm test (rows.filter passed)
    simp only [List.filter_filter, Bool.and_comm _ (passed _)] at hparts
    exact ((Row.sorted_perm _ _).append (Row.sorted_perm _ _)).trans hparts
  · exact Bool.false_ne_true ((hdropped row hother).symm.trans (hkept row hmem))

/-- A request that asks for one value of a filter key, and the request with the marked value in its
place, part the visible rows: both have a plan, one selects the visible rows that meet the condition
of the value, and the other those that do not. The key may be a field or lead through relations; if
it begins with a many-to-many relation, the visibility must not speak of this one. -/
theorem Store.value_and_exclusion_partition (s : Store) (m : Model) (identity : Identity)
    (before after : List (String × String)) (key value : String) (c : Condition)
    (visibility : Predicate) (hm : s.registry.get? m.key = some m)
    (h : AsksOnly s.registry m before after key value c)
    (hvisible : s.registry.visibleRows m identity (.ofPairs (before ++ (key, value) :: after))
      = .ok visibility)
    (hseparate : m.isManyToMany (pathRoot key) = true →
      ∀ d ∈ visibility.conditions, d.root ≠ pathRoot key) :
    ∃ t asking excluding kept dropped,
      s.table? m.key = some t ∧
      s.registry.listPlan m identity (.ofPairs (before ++ (key, value) :: after)) = .ok asking ∧
      s.registry.listPlan m identity (.ofPairs (before ++ (key, "!" ++ value) :: after))
        = .ok excluding ∧
      s.selected m.key asking = .ok kept ∧ s.selected m.key excluding = .ok dropped ∧
      (kept ++ dropped).Perm (t.rows.filter fun row ↦ s.holds m row visibility) ∧
      (∀ row ∈ kept, s.holds m row (.leaf c) = true) ∧
      (∀ row ∈ dropped, s.holds m row (.leaf c) = false) ∧
      ∀ row, ¬(row ∈ kept ∧ row ∈ dropped) := by
  obtain ⟨t, ht⟩ := exists_table hm
  have hmarked : s.registry.visibleRows m identity
      (.ofPairs (before ++ (key, "!" ++ value) :: after)) = .ok visibility := by
    rw [← hvisible]
    refine Registry.visibleRows_of_keys ?_ _ m identity
    rw [List.map_append, List.map_append, List.map_cons, List.map_cons]
  have hown : (Predicate.leaf c).Separate m visibility := by
    intro d hd e he hmany
    rw [Predicate.positive_leaf, List.mem_singleton] at hd
    have hroot : d.root = pathRoot key := by rw [Condition.root, hd, h.path_eq]
    rw [hroot] at hmany ⊢
    exact (hseparate hmany e (Predicate.positive_subset_conditions _ he)).symm
  have hkept := selected_eq hm ht
    (s.registry.planUnder m (.ofPairs (before ++ (key, value) :: after)) visibility)
  have hdropped := selected_eq hm ht
    (s.registry.planUnder m (.ofPairs (before ++ (key, "!" ++ value) :: after)) visibility)
  simp only [h.keeps_value hown] at hkept
  simp only [h.keeps_marked] at hdropped
  exact ⟨t, _, _, _, _, ht, Registry.listPlan_eq_ok_iff.mpr ⟨visibility, hvisible, rfl⟩,
    Registry.listPlan_eq_ok_iff.mpr ⟨visibility, hmarked, rfl⟩, hkept, hdropped,
    Row.sorted_parts _ _ t.rows (s.holds m · visibility) (s.holds m · (.leaf c))⟩

/-! ## Folders by their parts -/

namespace Folders

/-- The value `2` of the key of parts, behind one that asks for nothing and before an ordering. -/
theorem asksOnly_part : AsksOnly store.registry folder [("parts__id", "")] [("_sort", "-id")]
    "parts__id" "2" ⟨"parts__id", .exact, .text "2"⟩ where
  isFilter := by decide +kernel
  compiled := ⟨.auto, by decide +kernel, rfl⟩
  single := by decide +kernel
  unmarked := by decide +kernel
  idle := by
    have hnone : ∀ mode, ∀ pair ∈ [("parts__id", ""), ("_sort", "-id")],
        (store.registry.asked? folder mode pair.1 pair.2).isNone = true := by
      intro mode
      cases mode <;> decide +kernel
    exact fun mode pair hpair ↦ Option.isNone_iff_eq_none.mp (hnone mode pair hpair)

/-- The folder `4` has the part `2`: the one request selects it, and the other one does not. -/
theorem part_partitions_folders :
    ∃ t asking excluding kept dropped,
      store.table? folder.key = some t ∧
      store.registry.listPlan folder .anonymous
        (.ofPairs [("parts__id", ""), ("parts__id", "2"), ("_sort", "-id")]) = .ok asking ∧
      store.registry.listPlan folder .anonymous
        (.ofPairs [("parts__id", ""), ("parts__id", "!2"), ("_sort", "-id")]) = .ok excluding ∧
      store.selected folder.key asking = .ok kept ∧
      store.selected folder.key excluding = .ok dropped ∧
      (kept ++ dropped).Perm (t.rows.filter fun row ↦ store.holds folder row .always) ∧
      torn ∈ kept ∧ torn ∉ dropped := by
  obtain ⟨t, asking, excluding, kept, dropped, ht, hasking, hexcluding, hkept, hdropped, hperm, -,
    hfails, -⟩ := store.value_and_exclusion_partition folder .anonymous [("parts__id", "")]
      [("_sort", "-id")] "parts__id" "2" _ .always get?_folder asksOnly_part rfl nofun
  have hmeets : store.holds folder torn (.leaf ⟨"parts__id", .exact, .text "2"⟩) = true := by
    decide +kernel
  have hnot : torn ∉ dropped := fun hmem ↦ by
    rw [hfails torn hmem] at hmeets
    exact Bool.false_ne_true hmeets
  have hmem : torn ∈ kept ++ dropped :=
    hperm.mem_iff.mpr (List.mem_filter.mpr ⟨torn_mem ht, store.holds_always⟩)
  exact ⟨t, asking, excluding, kept, dropped, ht, hasking, hexcluding, hkept, hdropped, hperm,
    (List.mem_append.mp hmem).resolve_right hnot, hnot⟩

end Folders

/-! ## A field with a reserved name -/

namespace Items

/-- Items with a code in a field whose name is a reserved key. -/
def item : Model where
  key := ⟨"core", "item"⟩
  tier := .public
  fields := implicitFields.insertAll [("_code", ⟨.text, none⟩)]

def coded : Row := .ofList [("id", .int 1), ("_code", .text "a")]

/-- The store of the item and of one with another code. -/
def store : Store where
  registry := {
    settings := {}
    identityModel := ⟨"auth", "user"⟩
    models := [item]
    distinct := by decide }
  tables := [(item.key,
    ⟨[(1, coded), (2, .ofList [("id", .int 2), ("_code", .text "b")])], by decide⟩)]
  covers := rfl

/-- The key has a kind and the value makes a condition, but a reserved key asks for nothing. So the
item is selected by the value and by the marked value. -/
theorem reserved_key_selects_all :
    store.registry.get? item.key = some item ∧
      store.registry.filterKind? item "_code" = some .text ∧
      compileValue (some .text) "_code" "a" = some (.leaf ⟨"_code", .exact, .text "a"⟩) ∧
      hasAlternatives "a" = false ∧ isMarked "a" = false ∧
      store.registry.visibleRows item .anonymous (.ofPairs [("_code", "a")]) = .ok .always ∧
      ∃ asking excluding kept dropped,
        store.registry.listPlan item .anonymous (.ofPairs [("_code", "a")]) = .ok asking ∧
        store.registry.listPlan item .anonymous (.ofPairs [("_code", "!a")]) = .ok excluding ∧
        store.selected item.key asking = .ok kept ∧
        store.selected item.key excluding = .ok dropped ∧ coded ∈ kept ∧ coded ∈ dropped := by
  have hitem : store.registry.get? item.key = some item :=
    (store.registry.get?_eq_some_iff _ _).mpr ⟨List.mem_singleton_self item, rfl⟩
  refine ⟨hitem, by decide +kernel, rfl, by decide +kernel, by decide +kernel, rfl, ?_⟩
  refine ⟨_, _, _, _, Registry.listPlan_eq_ok_iff.mpr ⟨.always, rfl, rfl⟩,
    Registry.listPlan_eq_ok_iff.mpr ⟨.always, rfl, rfl⟩, Store.selected_eq hitem rfl _,
    Store.selected_eq hitem rfl _, ?_, ?_⟩
  · rw [Row.mem_sorted, List.mem_filter]
    exact ⟨List.mem_cons_self, by decide +kernel⟩
  · rw [Row.mem_sorted, List.mem_filter]
    exact ⟨List.mem_cons_self, by decide +kernel⟩

end Items

end RowAccess

import RowAccess.Proofs.Evaluation.Related
import RowAccess.Proofs.Query.Compilation
import RowAccess.Proofs.Query.Listing
import RowAccess.Proofs.Query.Parameters

/-!
# What exclusions drop

The exclusions of a request form one conjunction, and it is the conjunction that is negated: a row
is dropped if it meets all of them. Only an exclusion that stands on its own, a later value of a key
on a many-to-many relation, drops every row that meets it. So a single exclusion does what it says,
and of two conjoined ones each keeps the rows that do not meet the other one.

Below the negation no related row is chosen, so an exclusion speaks of all related rows wherever it
stands.
-/

namespace RowAccess

theorem Parameters.exists_leaf_of_mem_parts {p : Parameters} {r : Registry} {m : Model}
    {part : Part} (h : part ∈ p.parts r m .exclude) : ∃ c, part.predicate = .leaf c := by
  obtain ⟨key, values, kind, -, -, hpart⟩ := mem_parts.mp h
  obtain ⟨value, index, -, hpart⟩ := mem_keyParts.mp hpart
  rcases mem_parts_contribution hpart with ⟨c, -, rfl⟩ | ⟨hmode, -⟩
  · exact ⟨c, rfl⟩
  · exact absurd hmode (by decide)

namespace Plan

variable {s : Store} {m : Model} {row : Row}

/-- The negation of a conjunction, if it has parts at all. -/
theorem exclusion_mkAll {parts : List Predicate} (h : ∀ part ∈ parts, part.IsPart) :
    exclusion (.mkAll parts) = if parts.isEmpty then [] else [.not (.mkAll parts)] := by
  rw [exclusion]
  cases parts with
  | nil => rfl
  | cons part rest =>
    have hconjuncts := Predicate.conjuncts_mkAll h
    have hrestricts : (Predicate.mkAll (part :: rest)).isAlways = false := by
      cases hall : Predicate.mkAll (part :: rest) with
      | always =>
        rw [hall] at hconjuncts
        exact absurd hconjuncts nofun
      | leaf c => rfl
      | all parts => rfl
      | any parts => rfl
      | not part => rfl
    rw [hrestricts]
    rfl

/-- The first step of a plan keeps the rows that are visible, meet the filters and do not meet all
of the conjoined exclusions. -/
theorem holds_mkAll_exclusion {visibility filter : Predicate} {parts : List Predicate}
    (h : ∀ part ∈ parts, ∃ c, part = .leaf c) :
    s.holds m row (.mkAll (visibility :: filter :: exclusion (.mkAll parts))) = true ↔
      s.holds m row (.mkAll [visibility, filter]) = true ∧
        (parts ≠ [] → ∃ part ∈ parts, s.holds m row part = false) := by
  have hparts : ∀ part ∈ parts, part.IsPart := by
    intro part hpart
    obtain ⟨c, rfl⟩ := h part hpart
    rfl
  rw [exclusion_mkAll hparts]
  cases hempty : parts.isEmpty with
  | true =>
    rw [List.isEmpty_iff.mp hempty]
    exact (and_iff_left fun hne ↦ absurd rfl hne).symm
  | false =>
    -- The negation sees no choice, so it can be taken out of the conjunction.
    have hswap : (visibility :: filter :: [.not (.mkAll parts)]).Perm
        (.not (.mkAll parts) :: [visibility, filter]) :=
      List.perm_append_singleton _ [visibility, filter]
    have hleaf : ∀ part ∈ parts, s.satisfies m row [] part = s.holds m row part := by
      intro part hpart
      obtain ⟨c, rfl⟩ := h part hpart
      rw [s.holds_leaf, s.satisfies_leaf]
    have hall : parts.all (s.satisfies m row []) = parts.all (s.holds m row) := by
      rw [Bool.eq_iff_iff, List.all_eq_true, List.all_eq_true]
      exact forall₂_congr fun part hpart ↦ by rw [hleaf part hpart]
    rw [if_neg Bool.false_ne_true, s.holds_mkAll_perm hswap,
      s.holds_mkAll_cons (Predicate.unjoined_not _), s.holds_not, s.satisfies_mkAll, hall,
      Bool.and_eq_true, and_comm, List.not_all_eq_any_not, List.any_eq_true]
    refine and_congr_right fun _ ↦ ?_
    simp [List.isEmpty_eq_false_iff.mp hempty]

/-- A row is kept if it is visible, meets the filters, and meets neither an exclusion that stands on
its own nor all of the others. -/
theorem keeps_combine_iff {visibility : Predicate} {filter : PredicateList} {parts : List Part}
    (h : ∀ part ∈ parts, ∃ c, part.predicate = .leaf c) :
    (combine visibility filter (.ofParts parts)).steps.all (s.keeps m row) = true ↔
      (combine visibility filter {}).steps.all (s.keeps m row) = true ∧
        (∀ p ∈ Part.alone parts, s.holds m row p = false) ∧
        (Part.joint parts ≠ [] → ∃ p ∈ Part.joint parts, s.holds m row p = false) := by
  have hjoint : ∀ p ∈ Part.joint parts, ∃ c, p = .leaf c := fun p hp ↦
    h _ (Part.mem_joint.mp hp)
  have hnone : s.holds m row (.mkAll (visibility :: filter.primary :: exclusion .always))
      = s.holds m row (.mkAll [visibility, filter.primary]) := rfl
  have hlone : (Part.alone parts).all (s.keeps m row ∘ Step.exclude) = true ↔
      ∀ p ∈ Part.alone parts, s.holds m row p = false := by
    simp only [List.all_eq_true, Function.comp_apply, Store.keeps, Bool.not_eq_true']
  simp only [combine, PredicateList.ofParts, List.cons_append, List.all_cons, List.all_append,
    List.all_map, List.map_nil, List.append_nil, Bool.and_eq_true, Store.keeps,
    holds_mkAll_exclusion hjoint, hnone, hlone]
  constructor
  · rintro ⟨⟨hfirst, hjoint⟩, hfilter, hlone⟩
    exact ⟨⟨hfirst, hfilter⟩, hlone, hjoint⟩
  · rintro ⟨⟨hfirst, hfilter⟩, hlone, hjoint⟩
    exact ⟨⟨hfirst, hjoint⟩, hfilter, hlone⟩

end Plan

namespace Parameters

variable {r : Registry} {m : Model} {pairs : List (String × String)} {key value : String}
  {kind : FieldKind} {q : Predicate}

/-- An exclusion is one of those that stand on their own or one of those that are conjoined. It
stands on its own if its key is one on a many-to-many relation and it is not the first value. -/
theorem mem_parts_of_exclusion (hpair : (key, "!" ++ value) ∈ pairs)
    (hkey : isReserved key = false) (hvalue : alternativeMark ∉ value.toList)
    (hkind : r.filterKind? m key = some kind) (hq : compileValue (some kind) key value = some q) :
    let excluded := (ofPairs pairs).parts r m .exclude
    (q ∈ Part.alone excluded ∨ q ∈ Part.joint excluded) ∧
      (m.isManyToMany (pathRoot key) = true → (ofPairs pairs).first? key ≠ some ("!" ++ value) →
        q ∈ Part.alone excluded) := by
  intro excluded
  obtain ⟨hfilter, hmem⟩ := exists_mem_filters hpair hkey
  obtain ⟨index, hindex⟩ := List.mem_iff_getElem?.mp hmem
  have hpart : ⟨q, m.isManyToMany (pathRoot key) && 0 < index⟩ ∈ excluded := by
    refine mem_parts.mpr ⟨key, _, kind, hfilter, hkind,
      mem_keyParts.mpr ⟨_, index, hindex, ?_⟩⟩
    rw [contribution_exclude_marked hvalue hq]
    exact List.mem_singleton_self _
  constructor
  · cases hapart : m.isManyToMany (pathRoot key) && decide (0 < index) with
    | false => exact .inr (Part.mem_joint.mpr (hapart ▸ hpart))
    | true => exact .inl (Part.mem_alone.mpr (hapart ▸ hpart))
  · intro hmany hfirst
    have hlater : 0 < index := by
      refine Nat.pos_of_ne_zero fun hzero ↦ hfirst ?_
      rw [first?, List.head?_eq_getElem?, ← hzero, hindex]
    rw [hmany, decide_eq_true hlater] at hpart
    exact Part.mem_alone.mpr hpart

end Parameters

/-- A list request that succeeds lists exactly the rows that are visible, meet its filters, and meet
neither an exclusion that stands on its own nor all of the others. So an exclusion drops every row
that meets it if it stands on its own, as a later value of a key on a many-to-many relation does, or
if no other one is conjoined with it. -/
theorem Service.list_drops_excluded (service : Service) (now : Instant) (s : Store)
    (request : Request) (app model : String)
    (h : (responseOf (service.perform now s request .list [app, model])).status = 200) :
    let p : Parameters := .ofPairs request.pairs
    ∃ m identity visibility t rows,
      service.Lists now s request app model m identity visibility t rows ∧
      let selecting := Plan.combine visibility (compileParameters p s.registry m .filter) {}
      let excluded := p.parts s.registry m .exclude
      (∀ row, row ∈ rows ↔ row ∈ t.rows ∧ selecting.steps.all (s.keeps m row) = true ∧
        (∀ q ∈ Part.alone excluded, s.holds m row q = false) ∧
        (Part.joint excluded ≠ [] → ∃ q ∈ Part.joint excluded, s.holds m row q = false)) ∧
      ∀ key value kind q, (key, "!" ++ value) ∈ request.pairs →
        Parameters.isReserved key = false → alternativeMark ∉ value.toList →
        s.registry.filterKind? m key = some kind → compileValue (some kind) key value = some q →
          (q ∈ Part.alone excluded ∨ q ∈ Part.joint excluded) ∧
          (m.isManyToMany (pathRoot key) = true → p.first? key ≠ some ("!" ++ value) →
            q ∈ Part.alone excluded) ∧
          (q ∈ Part.alone excluded ∨ (∀ other ∈ Part.joint excluded, other = q) →
            ∀ row ∈ rows, s.holds m row q = false) := by
  intro p
  obtain ⟨m, identity, visibility, t, rows, hlists⟩ := exists_lists h
  refine ⟨m, identity, visibility, t, rows, hlists, ?_⟩
  intro selecting excluded
  have hrows : ∀ row, row ∈ rows ↔ row ∈ t.rows ∧ selecting.steps.all (s.keeps m row) = true ∧
      (∀ q ∈ Part.alone excluded, s.holds m row q = false) ∧
      (Part.joint excluded ≠ [] → ∃ q ∈ Part.joint excluded, s.holds m row q = false) := by
    intro row
    rw [hlists.mem_rows, Registry.planUnder, compileParameters_eq_ofParts _ _ _ .exclude]
    exact and_congr_right fun _ ↦
      Plan.keeps_combine_iff fun part hpart ↦ Parameters.exists_leaf_of_mem_parts hpart
  refine ⟨hrows, fun key value kind q hpair hkey hvalue hkind hq ↦ ?_⟩
  obtain ⟨hplace, hlater⟩ := Parameters.mem_parts_of_exclusion hpair hkey hvalue hkind hq
  refine ⟨hplace, hlater, fun hlone row hrow ↦ ?_⟩
  obtain ⟨-, -, halone, hjoint⟩ := (hrows row).mp hrow
  rcases hlone with hlone | hall
  · exact halone q hlone
  · rcases hplace with hlone | hmem
    · exact halone q hlone
    · obtain ⟨other, hother, hfails⟩ := hjoint (List.ne_nil_of_mem hmem)
      exact hall other hother ▸ hfails

namespace Folders

/-- A request for the folders without the parts `9` and `8`. -/
def withoutParts : Request where
  method := "GET"
  target := "/core/folder?parts__id=!9&parts__id=!8"

/-- The folder `4` is listed, and no listed folder has the part `8`. -/
theorem list_without_parts :
    ∃ window rows,
      Service.responseOf
          (Service.perform {} ⟨0, 0⟩ store withoutParts .list ["core", "folder"])
        = folder.listResponse (.ofPairs withoutParts.pairs) window rows ∧
      torn ∈ rows ∧ ∀ row ∈ rows, store.holds folder row (.eq "parts__id" (.text "8")) = false := by
  obtain ⟨m, identity, visibility, t, rows, hlists, -, hdrops⟩ :=
    Service.list_drops_excluded {} ⟨0, 0⟩ store withoutParts "core" "folder" (by decide +kernel)
  obtain ⟨window, hshown⟩ := hlists.shown
  obtain rfl : folder = m := Option.some.inj (get?_folder.symm.trans hlists.addressed)
  obtain rfl : .always = visibility := Except.ok.inj hlists.visible
  obtain ⟨-, hlater, hdrops⟩ := hdrops "parts__id" "8" .auto (.eq "parts__id" (.text "8"))
    (by decide +kernel) (by decide +kernel) (by decide +kernel) (by decide +kernel) rfl
  exact ⟨window, rows, hshown,
    hlists.mem_rows.mpr ⟨torn_mem hlists.table, by decide +kernel⟩,
    hdrops (.inl (hlater (by decide +kernel) (by decide +kernel)))⟩

/-- A request for the folders that are not the folder `4` and are without the part `9`. -/
def withoutTorn : Request where
  method := "GET"
  target := "/core/folder?id=!4&parts__id=!9"

/-- Of two conjoined exclusions the folder `4` meets only one, so it is listed although the request
excludes its id. -/
theorem list_keeps_excluded :
    (Service.responseOf
        (Service.perform {} ⟨0, 0⟩ store withoutTorn .list ["core", "folder"])).status = 200 ∧
      ("id", "!4") ∈ withoutTorn.pairs ∧ Parameters.isReserved "id" = false ∧
      alternativeMark ∉ "4".toList ∧ store.registry.filterKind? folder "id" = some .auto ∧
      compileValue (some .auto) "id" "4" = some (.eq "id" (.text "4")) ∧
      store.registry.visibleRows folder .anonymous (.ofPairs withoutTorn.pairs) = .ok .always ∧
      ∃ rows, store.selected folder.key
          (store.registry.planUnder folder (.ofPairs withoutTorn.pairs) .always) = .ok rows ∧
        torn ∈ rows ∧ store.holds folder torn (.eq "id" (.text "4")) = true := by
  refine ⟨by decide +kernel, by decide +kernel, by decide +kernel, by decide +kernel,
    by decide +kernel, rfl, rfl, ?_⟩
  refine ⟨_, Store.selected_eq get?_folder rfl _, ?_, by decide +kernel⟩
  rw [Row.mem_sorted, List.mem_filter]
  exact ⟨torn_mem rfl, by decide +kernel⟩

end Folders

end RowAccess

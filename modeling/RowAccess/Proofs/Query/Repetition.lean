import RowAccess.Proofs.Evaluation.Related
import RowAccess.Proofs.Query.Compilation
import RowAccess.Proofs.Query.Listing
import RowAccess.Proofs.Query.Parameters

/-!
# Repeated values on a many-to-many relation

A key on a many-to-many relation may be given several values. A later value stands on its own, so
that another related row may satisfy it than the first one. A list of alternatives is an exception:
at whatever place it stands, it joins the conjunction, and there it shares its related row with the
first value. So the values are independent of each other, and of their order, as long as no later
one has alternatives; otherwise one related row has to satisfy the first value and all later ones
with alternatives.
-/

namespace RowAccess

/-! ## Leaving a key out -/

namespace Parameters

/-- The parameters without the values of a key. -/
def without (p : Parameters) (key : String) : Parameters :=
  ⟨p.values.filterKeys fun other ↦ other != key⟩

theorem filters_without (p : Parameters) (key : String) :
    (p.without key).filters = p.filters.filter fun entry ↦ entry.1 != key := by
  have hcomm : (p.values.entries.filter fun entry ↦ entry.1 != key).filter
        (fun entry ↦ !isReserved entry.1)
      = (p.values.entries.filter fun entry ↦ !isReserved entry.1).filter
        fun entry ↦ entry.1 != key := by
    rw [List.filter_filter, List.filter_filter]
    exact List.filter_congr fun _ _ ↦ Bool.and_comm _ _
  exact hcomm

theorem exists_filters_eq {p : Parameters} {key : String} {values : List String}
    (h : (key, values) ∈ p.filters) : ∃ before behind,
      p.filters = before ++ (key, values) :: behind ∧
        (p.without key).filters = before ++ behind := by
  obtain ⟨before, behind, hsplit⟩ := List.append_of_mem h
  have hnodup : (p.filters.map Prod.fst).Nodup := Ordered.nodup _
  rw [hsplit, (List.perm_middle.map Prod.fst).nodup_iff, List.map_cons, List.nodup_cons] at hnodup
  have hothers : (before ++ behind).filter (fun entry ↦ entry.1 != key) = before ++ behind := by
    refine List.filter_eq_self.mpr fun entry hentry ↦ bne_iff_ne.mpr fun e ↦ ?_
    exact hnodup.1 (List.mem_map.mpr ⟨entry, hentry, e⟩)
  refine ⟨before, behind, hsplit, ?_⟩
  rw [filters_without, hsplit, List.filter_append, List.filter_cons_of_neg (by simp),
    ← List.filter_append, hothers]

theorem parts_perm {p : Parameters} {r : Registry} {m : Model} {key : String}
    {values : List String} {kind : FieldKind} (h : (key, values) ∈ p.filters)
    (hkind : r.filterKind? m key = some kind) (mode : FilterMode) :
    (p.parts r m mode).Perm (keyParts mode kind (m.isManyToMany (pathRoot key)) key values ++
      (p.without key).parts r m mode) := by
  obtain ⟨before, behind, hfilters, hothers⟩ := exists_filters_eq h
  rw [parts, parts, hfilters, hothers]
  refine (List.perm_middle.flatMap_right _).trans ?_
  rw [List.flatMap_cons]
  simp only [hkind]
  exact .refl _

theorem parts_without {p : Parameters} {r : Registry} {m : Model} {key : String}
    {values : List String} {kind : FieldKind} {mode : FilterMode} (h : (key, values) ∈ p.filters)
    (hkind : r.filterKind? m key = some kind)
    (hnone : keyParts mode kind (m.isManyToMany (pathRoot key)) key values = []) :
    p.parts r m mode = (p.without key).parts r m mode := by
  obtain ⟨before, behind, hfilters, hothers⟩ := exists_filters_eq h
  rw [parts, parts, hfilters, hothers, List.flatMap_append, List.flatMap_append,
    List.flatMap_cons]
  simp only [hkind, hnone, List.nil_append]

end Parameters

/-! ## The parts of repeated values -/

/-- A key on a many-to-many relation, which no other key begins with, is given several values. All
of them select: none is marked, each is compiled to conditions, and no condition asks for null. -/
structure Parameters.Repeats (p : Parameters) (r : Registry) (m : Model) (key : String)
    (kind : FieldKind) (first : String) (later : List String) : Prop where
  isFilter : isReserved key = false
  hasKind : r.filterKind? m key = some kind
  manyToMany : m.isManyToMany (pathRoot key) = true
  values : p.all key = first :: later
  unmarked : ∀ v ∈ first :: later, v.toList.head? ≠ some negationMark
  compiled : ∀ v ∈ first :: later, compileAlternatives (some kind) key v ≠ []
  strict : ∀ v ∈ first :: later, ∀ c, .leaf c ∈ compileAlternatives (some kind) key v →
    ¬(c.lookup = .exact ∧ c.operand = .null)
  unshared : ∀ other, p.contains other = true → pathRoot other = pathRoot key → other = key

/-- The disjunction of the alternatives of a value. -/
def askedOf (kind : FieldKind) (key value : String) : Predicate :=
  .mkAny (compileAlternatives (some kind) key value)

/-- Whether a related row satisfies one of the alternatives of a value. -/
def Store.relatedMeets (s : Store) (m : Model) (row : Row) (kind : FieldKind) (key value : String)
    (id : Json) : Bool :=
  (compileAlternatives (some kind) key value).any
    (s.satisfies m row [(pathRoot key, some id)])

/-- Whether a value has alternatives. -/
def hasAlternatives (value : String) : Bool := value.toList.contains alternativeMark

theorem conjoined_subset (first : String) (later : List String) :
    first :: later.filter hasAlternatives ⊆ first :: later :=
  (List.filter_sublist.cons_cons first).subset

/-- A value that selects makes one part, which never stands on its own if it has alternatives. -/
theorem parts_contribution_filter {kind : FieldKind} {key value : String}
    (hmark : value.toList.head? ≠ some negationMark)
    (hne : compileAlternatives (some kind) key value ≠ []) (apart : Bool) :
    (contribution .filter (some kind) key value).parts apart
      = [⟨askedOf kind key value, apart && !hasAlternatives value⟩] := by
  rw [contribution_filter hmark hne, hasAlternatives]
  cases value.toList.contains alternativeMark with
  | true => rw [Bool.not_true, Bool.and_false]; rfl
  | false => rw [Bool.not_false, Bool.and_true]; rfl

/-- Later values stand on their own, except for those with alternatives. -/
theorem keyParts_filter {kind : FieldKind} {key first : String} {later : List String}
    (hunmarked : ∀ v ∈ first :: later, v.toList.head? ≠ some negationMark)
    (hcompiled : ∀ v ∈ first :: later, compileAlternatives (some kind) key v ≠ []) :
    keyParts .filter kind true key (first :: later) =
      ⟨askedOf kind key first, false⟩ ::
        later.map fun v ↦ ⟨askedOf kind key v, !hasAlternatives v⟩ := by
  have hvalue : ∀ v ∈ first :: later, ∀ apart,
      (contribution .filter (some kind) key v).parts apart
        = [⟨askedOf kind key v, apart && !hasAlternatives v⟩] :=
    fun v hv ↦ parts_contribution_filter (hunmarked v hv) (hcompiled v hv)
  -- The places of the later values begin with one, so the induction is over any positive start.
  have hlater : ∀ (values : List String) (start : Nat), 0 < start → values ⊆ first :: later →
      (values.zipIdx start).flatMap (fun entry ↦
          (contribution .filter (some kind) key entry.1).parts (true && 0 < entry.2))
        = values.map fun v ↦ ⟨askedOf kind key v, !hasAlternatives v⟩ := by
    intro values
    induction values with
    | nil => exact fun _ _ _ ↦ rfl
    | cons v rest ih =>
      intro start hstart hsub
      obtain ⟨hv, hrest⟩ := List.cons_subset.mp hsub
      rw [List.zipIdx_cons, List.flatMap_cons, ih _ (Nat.succ_pos start) hrest, hvalue v hv,
        decide_eq_true hstart]
      rfl
  calc keyParts .filter kind true key (first :: later)
      = (contribution .filter (some kind) key first).parts false ++
          (later.zipIdx 1).flatMap (fun entry ↦
            (contribution .filter (some kind) key entry.1).parts (true && 0 < entry.2)) := rfl
    _ = ⟨askedOf kind key first, false⟩ ::
          later.map fun v ↦ ⟨askedOf kind key v, !hasAlternatives v⟩ := by
      rw [hlater later 1 Nat.one_pos (List.subset_cons_self _ _),
        hvalue first List.mem_cons_self]
      rfl

theorem keyParts_exclude {kind : FieldKind} {manyToMany : Bool} {key : String}
    {values : List String} (hunmarked : ∀ v ∈ values, v.toList.head? ≠ some negationMark) :
    keyParts .exclude kind manyToMany key values = [] := by
  rw [List.eq_nil_iff_forall_not_mem]
  intro part hpart
  obtain ⟨value, index, hindex, hpart⟩ := mem_keyParts.mp hpart
  rw [contribution_exclude_of_unmarked (hunmarked value (List.mem_of_getElem? hindex))] at hpart
  exact absurd hpart List.not_mem_nil

namespace Store

variable (s : Store) {m : Model} {row : Row}

theorem satisfies_askedOf (kind : FieldKind) (key value : String) (id : Json) :
    s.satisfies m row [(pathRoot key, some id)] (askedOf kind key value)
      = s.relatedMeets m row kind key value id :=
  s.satisfies_mkAny m row _ _

end Store

/-! ## Filters on a relation of their own -/

namespace Plan

variable {s : Store} {m : Model} {row : Row} {visibility : Predicate}

theorem positive_exclusion (p : Predicate) : (exclusion p).flatMap Predicate.positive = [] := by
  rw [exclusion]
  split
  · rfl
  · rw [List.flatMap_singleton, Predicate.positive_not]

/-- Filters that speak of a many-to-many relation of their own are met apart from the rest of the
plan. -/
theorem keeps_combine_append {parts own others : List Part} (hperm : parts.Perm (own ++ others))
    (hvisibility : (Predicate.mkAll (Part.joint own)).Separate m visibility)
    (hothers : (Predicate.mkAll (Part.joint own)).Separate m (.mkAll (Part.joint others)))
    (exclude : PredicateList) :
    (combine visibility (.ofParts parts) exclude).steps.all (s.keeps m row)
      = (s.holds m row (.mkAll (Part.joint own)) && (Part.alone own).all (s.holds m row)
        && (combine visibility (.ofParts others) exclude).steps.all (s.keeps m row)) := by
  have hjoint : (Part.joint parts).Perm (Part.joint own ++ Part.joint others) := by
    rw [← Part.joint_append]
    exact (hperm.filter _).map _
  have halone : (Part.alone parts).Perm (Part.alone own ++ Part.alone others) := by
    rw [← Part.alone_append]
    exact (hperm.filter _).map _
  -- The own filters move to the front, where they are one part beside everything else.
  have hfirst : s.holds m row
        (.mkAll (visibility :: .mkAll (Part.joint parts) :: exclusion exclude.primary))
      = s.holds m row (.mkAll [.mkAll (Part.joint own),
        .mkAll (visibility :: .mkAll (Part.joint others) :: exclusion exclude.primary)]) := by
    refine s.holds_congr ?_ fun choices ↦ ?_
    · simp only [Predicate.positive_mkAll, List.flatMap_cons, List.flatMap_nil, List.append_nil,
        positive_exclusion]
      refine ((hjoint.flatMap_right _).append_left _).trans ?_
      rw [List.flatMap_append]
      exact List.perm_append_comm_assoc _ _ _
    · simp only [s.satisfies_mkAll, List.all_cons, List.all_nil, Bool.and_true, hjoint.all_eq,
        List.all_append]
      ac_rfl
  have hseparate : (Predicate.mkAll (Part.joint own)).Separate m
      (.mkAll (visibility :: .mkAll (Part.joint others) :: exclusion exclude.primary)) := by
    intro c hc d hd
    rw [Predicate.positive_mkAll, List.flatMap_cons, List.flatMap_cons, positive_exclusion,
      List.append_nil] at hd
    exact (List.mem_append.mp hd).elim (hvisibility c hc d) (hothers c hc d)
  have hkeeps : ∀ plans : List Predicate, plans.all (s.keeps m row ∘ Step.include)
      = plans.all (s.holds m row) := fun _ ↦ rfl
  simp only [combine, PredicateList.ofParts, List.cons_append, List.all_cons, List.all_append,
    List.all_map, hkeeps, halone.all_eq]
  simp only [Store.keeps, hfirst, s.holds_mkAll_pair hseparate]
  ac_rfl

end Plan

namespace Parameters.Repeats

variable {p : Parameters} {r : Registry} {m : Model} {key : String} {kind : FieldKind}
  {first : String} {later : List String}

theorem mem_filters (h : p.Repeats r m key kind first later) :
    (key, first :: later) ∈ p.filters := by
  refine Parameters.mem_filters.mpr ⟨h.isFilter, ?_⟩
  have hvalues := h.values
  rw [all] at hvalues
  cases hget : p.values.get? key with
  | some values => rw [← hvalues, hget, Option.getD_some]
  | none =>
    rw [hget] at hvalues
    exact absurd hvalues.symm (List.cons_ne_nil _ _)

theorem askedOf_related (h : p.Repeats r m key kind first later) {v : String}
    (hv : v ∈ first :: later) :
    (askedOf kind key v).IsDisjunction ∧ (askedOf kind key v).SpeaksOf (pathRoot key) := by
  obtain ⟨cs, hpaths, hcs⟩ := exists_of_compileAlternatives (some kind) key v
  have hasked : askedOf kind key v = .anyOf cs := by rw [askedOf, hcs, Predicate.anyOf]
  rw [hasked]
  constructor
  · refine Predicate.isDisjunction_anyOf fun c hc ↦ ?_
    rw [← Bool.not_eq_true, Condition.holdsOf_null_iff]
    exact h.strict v hv c (hcs ▸ List.mem_map_of_mem hc)
  · intro c hc
    rw [Predicate.positive_anyOf] at hc
    rw [Condition.root, hpaths c hc]

theorem joint_keyParts (h : p.Repeats r m key kind first later) :
    Part.joint (keyParts .filter kind true key (first :: later))
      = (first :: later.filter hasAlternatives).map (askedOf kind key) := by
  rw [keyParts_filter h.unmarked h.compiled, Part.joint, List.filter_cons_of_pos rfl,
    List.filter_map, List.map_cons, List.map_map, List.map_cons]
  simp only [Function.comp_def, Bool.not_not]

theorem alone_keyParts (h : p.Repeats r m key kind first later) :
    Part.alone (keyParts .filter kind true key (first :: later))
      = (later.filter fun v ↦ !hasAlternatives v).map (askedOf kind key) := by
  rw [keyParts_filter h.unmarked h.compiled, Part.alone, List.filter_cons_of_neg (by simp),
    List.filter_map, List.map_map]
  rfl

theorem speaksOf_joint (h : p.Repeats r m key kind first later) :
    (Predicate.mkAll (Part.joint (keyParts .filter kind true key (first :: later)))).SpeaksOf
      (pathRoot key) := by
  intro c hc
  rw [h.joint_keyParts, Predicate.positive_mkAll] at hc
  obtain ⟨q, hq, hmem⟩ := List.mem_flatMap.mp hc
  obtain ⟨v, hv, rfl⟩ := List.mem_map.mp hq
  exact (h.askedOf_related (conjoined_subset first later hv)).2 c hmem

theorem root_ne_of_without (h : p.Repeats r m key kind first later) {c : Condition}
    (hc : c ∈ (Predicate.mkAll (Part.joint ((p.without key).parts r m .filter))).positive) :
    c.root ≠ pathRoot key := by
  rw [Predicate.positive_mkAll] at hc
  obtain ⟨q, hq, hmem⟩ := List.mem_flatMap.mp hc
  obtain ⟨other, values, hfilter, cs, hpaths, hcs⟩ := exists_of_mem_parts (Part.mem_joint.mp hq)
  rw [filters_without, List.mem_filter, bne_iff_ne] at hfilter
  have hother : p.contains other = true := by
    rw [contains, Ordered.contains, (Parameters.mem_filters.mp hfilter.1).2, Option.isSome_some]
  dsimp only at hcs
  rw [hcs, Predicate.positive_anyOf] at hmem
  rw [Condition.root, hpaths c hmem]
  exact fun hroot ↦ hfilter.2 (h.unshared other hother hroot)

/-- A row is kept if the rest of the request keeps it, one related row satisfies the first value
and all later ones with alternatives, and some related row satisfies each other later one. -/
theorem keeps_iff {s : Store} {row : Row} {visibility : Predicate}
    (h : p.Repeats s.registry m key kind first later)
    (hvisibility : ∀ c ∈ visibility.positive, c.root ≠ pathRoot key) :
    (s.registry.planUnder m p visibility).steps.all (s.keeps m row) = true ↔
      (s.registry.planUnder m (p.without key) visibility).steps.all (s.keeps m row) = true ∧
        (∃ id ∈ relatedIds (row.valueOf (pathRoot key)),
          ∀ v ∈ first :: later.filter hasAlternatives,
            s.relatedMeets m row kind key v id = true) ∧
        ∀ v ∈ later, hasAlternatives v = false →
          ∃ id ∈ relatedIds (row.valueOf (pathRoot key)),
            s.relatedMeets m row kind key v id = true := by
  have hfilter := parts_perm h.mem_filters h.hasKind .filter
  rw [h.manyToMany] at hfilter
  have hexclude : compileParameters p s.registry m .exclude
      = compileParameters (p.without key) s.registry m .exclude := by
    rw [compileParameters_eq_ofParts, compileParameters_eq_ofParts,
      parts_without h.mem_filters h.hasKind (keyParts_exclude h.unmarked)]
  have hseparate : ∀ q : Predicate, (∀ c ∈ q.positive, c.root ≠ pathRoot key) →
      (Predicate.mkAll (Part.joint (keyParts .filter kind true key (first :: later)))).Separate
        m q :=
    fun q hq c hc d hd _ e ↦ hq d hd (e.symm.trans (h.speaksOf_joint c hc))
  rw [Registry.planUnder, Registry.planUnder, compileParameters_eq_ofParts p _ _ .filter,
    compileParameters_eq_ofParts (p.without key) _ _ .filter, hexclude]
  dsimp only
  rw [Plan.keeps_combine_append hfilter (hseparate _ hvisibility)
    (hseparate _ fun c hc ↦ h.root_ne_of_without hc), Bool.and_eq_true, Bool.and_eq_true, and_comm]
  refine and_congr_right fun _ ↦ and_congr ?_ ?_
  · have hconjoined := fun v hv ↦ h.askedOf_related (conjoined_subset first later (a := v) hv)
    have hne : (first :: later.filter hasAlternatives).map (askedOf kind key) ≠ [] := fun hnil ↦
      List.cons_ne_nil _ _ (List.map_eq_nil_iff.mp hnil)
    rw [h.joint_keyParts, s.holds_mkAll_iff_related h.manyToMany hne
      (List.forall_mem_map.mpr fun v hv ↦ (hconjoined v hv).1)
      (List.forall_mem_map.mpr fun v hv ↦ (hconjoined v hv).2)]
    simp only [List.forall_mem_map, s.satisfies_askedOf]
  · rw [h.alone_keyParts, List.all_eq_true, List.forall_mem_map]
    simp only [List.mem_filter, Bool.not_eq_true', and_imp]
    refine forall₃_congr fun v hv _ ↦ ?_
    obtain ⟨hdisjunction, hspeaks⟩ := h.askedOf_related (List.mem_cons_of_mem first hv)
    rw [s.holds_iff_related h.manyToMany hdisjunction hspeaks]
    simp only [s.satisfies_askedOf]

end Parameters.Repeats

/-- A list request that succeeds, and that gives several values to a key on a many-to-many relation
of which the visibility does not speak, lists the rows that the rest of the request selects and of
which one related row satisfies the first value and all later ones with alternatives, and some
related row satisfies each other value. So each value may be satisfied by another related row, in
whatever order the values are given, unless a later one has alternatives. -/
theorem Service.list_meets_repeated (service : Service) (now : Instant) (s : Store)
    (request : Request) (app model : String)
    (h : (responseOf (service.perform now s request .list [app, model])).status = 200) :
    let p : Parameters := .ofPairs request.pairs
    ∃ m identity visibility t rows,
      service.Lists now s request app model m identity visibility t rows ∧
      ∀ key kind first later, p.Repeats s.registry m key kind first later →
        (∀ c ∈ visibility.positive, c.root ≠ pathRoot key) →
        ∃ rest, s.selected m.key (s.registry.planUnder m (p.without key) visibility) = .ok rest ∧
          (∀ row, row ∈ rows ↔ row ∈ rest ∧
            (∃ id ∈ relatedIds (row.valueOf (pathRoot key)),
              ∀ v ∈ first :: later.filter hasAlternatives,
                s.relatedMeets m row kind key v id = true) ∧
            ∀ v ∈ later, hasAlternatives v = false →
              ∃ id ∈ relatedIds (row.valueOf (pathRoot key)),
                s.relatedMeets m row kind key v id = true) ∧
          ((∀ v ∈ later, hasAlternatives v = false) → ∀ row, row ∈ rows ↔ row ∈ rest ∧
            ∀ v ∈ first :: later, ∃ id ∈ relatedIds (row.valueOf (pathRoot key)),
              s.relatedMeets m row kind key v id = true) := by
  intro p
  obtain ⟨m, identity, visibility, t, rows, hlists⟩ := exists_lists h
  refine ⟨m, identity, visibility, t, rows, hlists,
    fun key kind first later hrepeats hvisibility ↦ ?_⟩
  have hrest := Store.selected_eq hlists.registered hlists.table
    (s.registry.planUnder m (p.without key) visibility)
  have hrows : ∀ row, row ∈ rows ↔ _ := fun row ↦ by
    rw [hlists.mem_rows, hrepeats.keeps_iff hvisibility, ← and_assoc,
      ← Store.mem_of_selected hlists.registered hlists.table hrest]
  refine ⟨_, hrest, hrows, fun hlater row ↦ (hrows row).trans (and_congr_right fun _ ↦ ?_)⟩
  have hnone : later.filter hasAlternatives = [] :=
    List.filter_eq_nil_iff.mpr fun v hv ↦ by rw [hlater v hv]; exact Bool.false_ne_true
  rw [hnone, List.forall_mem_cons]
  simp only [List.forall_mem_singleton]
  exact and_congr_right fun _ ↦ forall₂_congr fun v hv ↦
    ⟨fun himp ↦ himp (hlater v hv), fun hmeets _ ↦ hmeets⟩

theorem exists_text_of_compileAlternatives {path value : String} {c : Condition}
    (h : .leaf c ∈ compileAlternatives (some .auto) path value) :
    ∃ text, c.operand = .text text := by
  obtain ⟨part, -, hpart⟩ := List.mem_filterMap.mp h
  unfold compileValue at hpart
  split at hpart
  · exact absurd hpart nofun
  · cases hpart
    exact ⟨_, rfl⟩

namespace Folders

theorem repeats_parts {request : Request} {first : String} {later : List String}
    (hvalues : (Parameters.ofPairs request.pairs).all "parts__id" = first :: later)
    (hunmarked : ∀ v ∈ first :: later, v.toList.head? ≠ some negationMark)
    (hcompiled : ∀ v ∈ first :: later,
      (compileAlternatives (some .auto) "parts__id" v).isEmpty = false)
    (hpairs : ∀ pair ∈ request.pairs, pair.1 = "parts__id") :
    (Parameters.ofPairs request.pairs).Repeats store.registry folder "parts__id" .auto first
      later where
  isFilter := by decide +kernel
  hasKind := by decide +kernel
  manyToMany := by decide +kernel
  values := hvalues
  unmarked := hunmarked
  compiled v hv := List.isEmpty_eq_false_iff.mp (hcompiled v hv)
  strict v _ c hc := by
    obtain ⟨text, htext⟩ := exists_text_of_compileAlternatives hc
    rw [htext]
    exact fun hnull ↦ nomatch hnull.2
  unshared other hother _ := by
    rw [Parameters.contains_ofPairs, List.any_eq_true] at hother
    obtain ⟨pair, hpair, hkey⟩ := hother
    exact (beq_iff_eq.mp hkey).trans (hpairs pair hpair)

/-- A request for the folders with two parts. -/
def withParts : Request where
  method := "GET"
  target := "/core/folder?parts__id=2&parts__id=3"

/-- The folder `4` is listed, since it has both parts. -/
theorem list_with_parts :
    ∃ window rows,
      Service.responseOf (Service.perform {} ⟨0, 0⟩ store withParts .list ["core", "folder"])
        = folder.listResponse (.ofPairs withParts.pairs) window rows ∧ torn ∈ rows := by
  obtain ⟨m, identity, visibility, t, rows, hlists, hmeets⟩ :=
    Service.list_meets_repeated {} ⟨0, 0⟩ store withParts "core" "folder" (by decide +kernel)
  obtain ⟨window, hshown⟩ := hlists.shown
  obtain rfl : folder = m := Option.some.inj (get?_folder.symm.trans hlists.addressed)
  obtain rfl : .always = visibility := Except.ok.inj hlists.visible
  have hrepeats : (Parameters.ofPairs withParts.pairs).Repeats store.registry folder "parts__id"
      .auto "2" ["3"] :=
    repeats_parts (by decide +kernel) (by decide +kernel) (by decide +kernel) (by decide +kernel)
  obtain ⟨rest, hrest, -, hrows⟩ := hmeets _ _ _ _ hrepeats fun c hc ↦
    absurd hc (by rw [Predicate.positive_always]; exact List.not_mem_nil)
  refine ⟨window, rows, hshown, (hrows (by decide +kernel) torn).mpr ⟨?_, by decide +kernel⟩⟩
  rw [Store.mem_of_selected hlists.registered hlists.table hrest]
  exact ⟨torn_mem hlists.table, by decide +kernel⟩

/-- A request for the folders with the part `2`, and with the part `3` or `9`. -/
def withAlternativesLast : Request where
  method := "GET"
  target := "/core/folder?parts__id=2&parts__id=3,9"

/-- The same request, with its values in the other order. -/
def withAlternativesFirst : Request where
  method := "GET"
  target := "/core/folder?parts__id=3,9&parts__id=2"

/-- The folder `4` has the part `2`, and the part `3`. It is not listed if the alternatives come
last, and it is listed if they come first. -/
theorem list_misses_alternatives :
    (Service.responseOf
        (Service.perform {} ⟨0, 0⟩ store withAlternativesLast .list ["core", "folder"])).status
      = 200 ∧
      (Parameters.ofPairs withAlternativesLast.pairs).Repeats store.registry folder "parts__id"
        .auto "2" ["3,9"] ∧
      store.registry.visibleRows folder .anonymous (.ofPairs withAlternativesLast.pairs)
        = .ok .always ∧
      (store.registry.planUnder folder ((Parameters.ofPairs withAlternativesLast.pairs).without
        "parts__id") .always).steps.all (store.keeps folder torn) = true ∧
      (∀ v ∈ ["2", "3,9"], ∃ id ∈ relatedIds (torn.valueOf "parts"),
        store.relatedMeets folder torn .auto "parts__id" v id = true) ∧
      (∃ rows, store.selected folder.key (store.registry.planUnder folder
        (.ofPairs withAlternativesLast.pairs) .always) = .ok rows ∧ torn ∉ rows) ∧
      ∃ rows, store.selected folder.key (store.registry.planUnder folder
        (.ofPairs withAlternativesFirst.pairs) .always) = .ok rows ∧ torn ∈ rows := by
  refine ⟨by decide +kernel, repeats_parts (by decide +kernel) (by decide +kernel)
    (by decide +kernel) (by decide +kernel), rfl, by decide +kernel, by decide +kernel,
    ⟨_, Store.selected_eq get?_folder rfl _, ?_⟩, ⟨_, Store.selected_eq get?_folder rfl _, ?_⟩⟩
  · rw [Row.mem_sorted, List.mem_filter]
    exact fun hkept ↦ absurd hkept.2 (by decide +kernel)
  · rw [Row.mem_sorted, List.mem_filter]
    exact ⟨torn_mem rfl, by decide +kernel⟩

end Folders

end RowAccess

import RowAccess.Proofs.Audit
import RowAccess.Proofs.Evaluation.Conjunction
import RowAccess.Proofs.Query.Listing
import RowAccess.Proofs.Rest.Writes
import RowAccess.Proofs.Store.Reachable
import RowAccess.Proofs.Text.Integer
import RowAccess.Proofs.Visibility.Grounds

/-!
# What a detail request is answered with

A detail request runs the plan of the visible rows with one condition more, on the id. Every row is
stored with its id, and the path `id` reaches that one value whatever choices are offered, so the
condition shares nothing with the visibility, even if the visibility joins relations
(`holds_and_id`). Hence a detail request is answered with the row under its id, if there is one and
it is visible by itself, and is told otherwise that there is none (`detail_eq`).
-/

namespace RowAccess

namespace Store

variable (s : Store) {m : Model} {row : Row} {i n : Int}

/-! ## The condition on the id -/

/-- The path `id` reaches the id of a row, under any choices that the row offers. -/
theorem reached_id (hrow : row.get? "id" = some (.int i)) {choices : List (String × Choice)}
    (hoffered : ∀ choice, choices.lookup "id" = some choice → choice ∈ row.choicesFor "id") :
    s.reached m row choices ["id"] = [.int i] := by
  have hvalue : row.valueOf "id" = .int i := by rw [Row.valueOf, hrow, Option.getD_some]
  cases hrelation : m.hasRelation "id" with
  | false =>
    rw [s.reached_plain m row hrelation, hvalue]
    rfl
  | true =>
    obtain ⟨spec, hfield, hkind⟩ := Model.hasRelation_iff.mp hrelation
    have hids : idsUnder spec.kind (choices.lookup "id") (row.valueOf "id") = [.int i] := by
      unfold idsUnder
      split
      · -- The only choice for the relation is the id itself.
        rename_i choice _ hchoice
        have hmem := hoffered choice hchoice
        rw [Row.choicesFor, hvalue] at hmem
        rw [List.mem_singleton.mp hmem]
        rfl
      · rw [hvalue]
        rfl
    rw [s.reached_relation m row hfield hkind, hids]
    rfl

theorem meets_id (hrow : row.get? "id" = some (.int i)) {choices : List (String × Choice)}
    (hoffered : ∀ choice, choices.lookup "id" = some choice → choice ∈ row.choicesFor "id") :
    s.meets m row choices ⟨"id", .exact, .int n⟩ = true ↔ (Json.int i).asInt64? = some n := by
  have hsegment : pathSegments "id" = ["id"] := by decide +kernel
  have hmatches : (Operand.int n).matchesStored (.int i) = true ↔ _ := Operand.matchesStored_int
  rw [s.meets_iff_of_not_null rfl, hsegment, s.reached_id hrow hoffered, ← hmatches]
  simp only [List.mem_singleton, exists_eq_left]
  rfl

/-- The visible row of an id is the visible one that has the id. -/
theorem holds_and_id {visibility : Predicate}
    (hvisibility : visibility = .always ∨ visibility.IsDisjunction)
    (hrow : row.get? "id" = some (.int i)) :
    s.holds m row (visibility.and (.eq "id" (.int n))) = true ↔
      s.holds m row visibility = true ∧ (Json.int i).asInt64? = some n := by
  rw [Predicate.and]
  have halone : s.meets m row [] ⟨"id", .exact, .int n⟩ = true ↔ (Json.int i).asInt64? = some n :=
    s.meets_id hrow nofun
  rcases hvisibility with rfl | hdisjunction
  · have hand : Predicate.mkAll [.always, .eq "id" (.int n)] = .eq "id" (.int n) := rfl
    rw [hand, Predicate.eq, Predicate.compare, s.holds_leaf, halone, s.holds_always]
    exact ⟨fun h ↦ ⟨rfl, h⟩, And.right⟩
  · constructor
    · intro h
      refine ⟨s.holds_of_holds_mkAll List.mem_cons_self hdisjunction.strict h, ?_⟩
      have hleaf := s.holds_of_holds_mkAll (List.mem_cons_of_mem _ (List.mem_singleton_self _))
        (by simp [Predicate.eq, Predicate.compare]; rfl) h
      rwa [Predicate.eq, Predicate.compare, s.holds_leaf, halone] at hleaf
    · rintro ⟨h, hid⟩
      rw [s.holds_disjunction hdisjunction, List.any_eq_true] at h
      obtain ⟨c, hc, hmeets⟩ := h
      -- Whatever relations the conjunction joins, the condition on the id is met under each choice.
      obtain ⟨pick, hoffers, hsatisfies⟩ := s.exists_pick_of_meets hdisjunction
        (fun root hroot ↦ (Predicate.mem_joinedRoots.mp hroot).1) hc hmeets
      refine s.holds_iff.mpr ⟨pick, hoffers, ?_⟩
      rw [satisfies_mkAll, List.all_cons, List.all_cons, List.all_nil, Bool.and_true, hsatisfies,
        Bool.true_and, Predicate.eq, Predicate.compare, satisfies_leaf]
      exact (s.meets_id hrow (lookup_chosen_offered hoffers "id")).mpr hid

/-! ## The row of a detail request -/

variable {s} {t : Table}

/-- The plan of a detail request selects the row under its id, if it is visible. -/
theorem mem_of_selected_detailPlan (hm : s.registry.get? m.key = some m)
    (ht : s.table? m.key = some t) (hids : s.KeepsIds) {visibility : Predicate}
    (hvisibility : visibility = .always ∨ visibility.IsDisjunction)
    (hrange : Text.isInt64 n = true) {rows : List Row}
    (hrows : s.selected m.key (detailPlan visibility n) = .ok rows) :
    row ∈ rows ↔ t.get? n = some row ∧ s.holds m row visibility = true := by
  have hstored : ∀ {i : Int} {row : Row}, (i, row) ∈ t.entries → row.get? "id" = some (.int i) :=
    fun hentry ↦ hids m.key _ _ (get_eq_ok_iff.mpr ⟨t, ht, Table.get?_eq_some_iff.mpr hentry⟩)
  rw [mem_of_selected hm ht hrows, detailPlan, all_keeps_matching, Table.get?_eq_some_iff]
  constructor
  · rintro ⟨hmem, hholds⟩
    obtain ⟨⟨i, _⟩, hentry, rfl⟩ := List.mem_map.mp hmem
    obtain ⟨hvisible, hid⟩ := (s.holds_and_id hvisibility (hstored hentry)).mp hholds
    obtain ⟨-, hi⟩ := Json.asInt64?_eq_some_iff.mp hid
    obtain rfl := Number.int.inj (Json.number.inj hi)
    exact ⟨hentry, hvisible⟩
  · rintro ⟨hentry, hvisible⟩
    exact ⟨List.mem_map.mpr ⟨_, hentry, rfl⟩, (s.holds_and_id hvisibility (hstored hentry)).mpr
      ⟨hvisible, Json.asInt64?_eq_some_iff.mpr ⟨hrange, rfl⟩⟩⟩

end Store

def Model.detailResponse (m : Model) (p : Parameters) (row : Row) : Response where
  status := 200
  etag := some (EntityTag.ofVersion row.version)
  content := .json (row.project (m.fieldsToShow p)).toJson

namespace Store

variable {s : Store} {m : Model} {t : Table}

/-- A detail request for a stored row is answered with the first one that its plan selects. -/
theorem detail_of_rowOf {identity : Identity} {p : Parameters} {visibility : Predicate}
    {id : String} {n : Int} {row : Row} {rows : List Row} (hrow : s.rowOf m id = .ok (n, row))
    (hreading : m.requireReading identity = .ok ())
    (hvisible : s.registry.visibleRows m identity p = .ok visibility)
    (hrows : s.selected m.key (detailPlan visibility n) = .ok rows) :
    s.detail m (.ok identity) p id =
      match rows.head? with
      | some row => .ok (m.detailResponse p row)
      | none => .error (m.notFound id) := by
  rw [detail, hrow]
  dsimp only [bind, Except.bind]
  rw [hreading, hvisible]
  dsimp only [Except.mapError]
  rw [select_of_selected hrows]
  cases rows <;> rfl

/-- The row of a table that a text addresses, if it is visible. -/
def addressed? (s : Store) (m : Model) (t : Table) (visibility : Predicate) (id : String) :
    Option Row :=
  ((Text.readInt64? id).bind t.get?).filter fun row ↦ s.holds m row visibility

/-- A detail request is answered with the row that it addresses, or told that there is none. -/
theorem detail_eq (hm : s.registry.get? m.key = some m) (ht : s.table? m.key = some t)
    (hids : s.KeepsIds) {identity : Identity} {p : Parameters}
    (hreading : m.requireReading identity = .ok ()) {visibility : Predicate}
    (hvisible : s.registry.visibleRows m identity p = .ok visibility) (id : String) :
    s.detail m (.ok identity) p id =
      match s.addressed? m t visibility id with
      | some row => .ok (m.detailResponse p row)
      | none => .error (m.notFound id) := by
  rw [addressed?]
  cases hid : Text.readInt64? id with
  | none =>
    rw [detail, rowOf, hid]
    rfl
  | some n =>
    have hget : s.get m.key n = .ok (t.get? n) := get_eq_ok_iff.mpr ⟨t, ht, rfl⟩
    rw [Option.bind_some]
    cases hrow : t.get? n with
    | none =>
      rw [detail, rowOf, hid]
      dsimp only
      rw [hget, hrow]
      rfl
    | some row =>
      obtain ⟨rows, hrows⟩ : ∃ rows, s.selected m.key (detailPlan visibility n) = .ok rows :=
        ⟨_, selected_eq hm ht _⟩
      have hmem : ∀ found, found ∈ rows ↔ row = found ∧ s.holds m found visibility = true := by
        intro found
        rw [mem_of_selected_detailPlan hm ht hids
          (Registry.eq_always_or_isDisjunction_of_visibleRows hvisible)
          (Text.isInt64_of_readInt64? hid) hrows, hrow, Option.some.injEq]
      have hhead : rows.head? = if s.holds m row visibility then some row else none := by
        split
        · rename_i hholds
          have hfound : row ∈ rows := (hmem row).mpr ⟨rfl, hholds⟩
          obtain ⟨first, rest, rfl⟩ := List.exists_cons_of_ne_nil (List.ne_nil_of_mem hfound)
          rw [List.head?_cons, ← ((hmem first).mp List.mem_cons_self).1]
        · rename_i hhidden
          rw [List.head?_eq_none_iff, List.eq_nil_iff_forall_not_mem]
          intro found hfound
          obtain ⟨rfl, hholds⟩ := (hmem found).mp hfound
          exact hhidden hholds
      rw [detail_of_rowOf (rowOf_eq_ok_iff.mpr ⟨hid, hrow ▸ hget⟩) hreading hvisible hrows,
        Option.filter_some, hhead]

theorem exists_of_detail (hm : s.registry.get? m.key = some m) (hids : s.KeepsIds)
    {requester : Except Fault Identity} {p : Parameters} {id : String} {response : Response}
    (h : s.detail m requester p id = .ok response) :
    ∃ n row, Text.readInt64? id = some n ∧ s.get m.key n = .ok (some row) ∧
      response = m.detailResponse p row := by
  have hsteps := h
  rw [detail, Outcome.bind_eq_ok_iff] at hsteps
  obtain ⟨⟨n, found⟩, hfound, hsteps⟩ := hsteps
  obtain ⟨identity, rfl, hsteps⟩ := Outcome.bind_eq_ok_iff.mp hsteps
  obtain ⟨hreading, hsteps⟩ := Outcome.check_bind_eq_ok_iff.mp hsteps
  obtain ⟨visibility, hvisible, -⟩ := Outcome.bind_eq_ok_iff.mp hsteps
  obtain ⟨hid, hget⟩ := rowOf_eq_ok_iff.mp hfound
  obtain ⟨t, ht, -⟩ := get_eq_ok_iff.mp hget
  rw [detail_eq hm ht hids hreading (Outcome.mapError_eq_ok_iff.mp hvisible), addressed?, hid,
    Option.bind_some] at h
  split at h
  · next row hrow =>
    obtain ⟨hrow, -⟩ := Option.filter_eq_some_iff.mp hrow
    exact ⟨n, row, hid, get_eq_ok_iff.mpr ⟨t, ht, hrow⟩, (Except.ok.inj h).symm⟩
  · exact nomatch h

end Store

namespace Service

/-- The response to a detail request on a model, with its headers and the pairs of its query. -/
def detailing (service : Service) (s : Store) (app model id : String) (headers : Headers)
    (pairs : List (String × String)) : Response :=
  responseOf (reading s do
    let m ← s.registry.modelOf app model
    s.detail m (service.identification.identify headers) (.ofPairs pairs) id)

theorem perform_detail (service : Service) (now : Instant) (s : Store) (request : Request)
    (app model id : String) :
    responseOf (service.perform now s request .detail [app, model, id])
      = service.detailing s app model id request.headers request.pairs :=
  rfl

theorem detailing_eq {service : Service} {s : Store} {app model : String} {m : Model} {t : Table}
    {identity : Identity} {visibility : Predicate} {headers : Headers}
    {pairs : List (String × String)} (hm : s.registry.get? ⟨app, model⟩ = some m)
    (ht : s.table? m.key = some t) (hids : s.KeepsIds)
    (hidentity : service.identification.identify headers = .ok identity)
    (hreading : m.requireReading identity = .ok ())
    (hvisible : s.registry.visibleRows m identity (.ofPairs pairs) = .ok visibility)
    (id : String) :
    service.detailing s app model id headers pairs =
      match s.addressed? m t visibility id with
      | some row => m.detailResponse (.ofPairs pairs) row
      | none => .ofFault (m.notFound id) := by
  have hkey := ((s.registry.get?_eq_some_iff _ m).mp hm).2
  rw [detailing, Registry.modelOf_eq_ok_iff.mpr hm, hidentity]
  dsimp only [bind, Except.bind]
  rw [Store.detail_eq (hkey ▸ hm) ht hids hreading hvisible]
  cases s.addressed? m t visibility id <;> rfl

end Service

end RowAccess

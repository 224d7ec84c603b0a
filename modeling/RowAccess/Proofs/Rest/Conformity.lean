import RowAccess.Proofs.Rest.Lineage
import RowAccess.Proofs.Schema.Declaration

/-!
# Stored rows conform to their model

Whatever requests say, the rows of a service that began with an empty store are well formed. They
have no fields but declared ones, and relations hold ids: this is a property of a single row, which
every step of a row keeps. Their stamps are those of the request that created the row, and their
version counts the updates since then: this ties a row to the requests, and is read off its lineage.
-/

namespace RowAccess

/-! ## Values of relations -/

/-- An id is an integer of 64 bits. -/
def Json.IsId (value : Json) : Prop := ∃ n, Text.isInt64 n = true ∧ value = .int n

theorem Json.isInt64_iff_isId {value : Json} : value.isInt64 = true ↔ value.IsId := by
  rw [isInt64, Option.isSome_iff_exists]
  exact exists_congr fun n ↦ asInt64?_eq_some_iff

namespace FieldKind

theorem accepts_foreignKey_iff {value : Json} :
    foreignKey.accepts value = true ↔ value = .null ∨ value.IsId := by
  rw [accepts, Bool.or_eq_true, Json.isInt64_iff_isId]
  refine or_congr_left ?_
  cases value <;> simp [Json.isNull]

theorem accepts_manyToMany_iff {value : Json} :
    manyToMany.accepts value = true ↔
      ∃ items, value = .array items ∧ ∀ item ∈ items, item.IsId := by
  cases value with
  | array items => simp [accepts, Json.isInt64_iff_isId]
  | null => simp [accepts]
  | bool b => simp [accepts]
  | number n => simp [accepts]
  | text s => simp [accepts]
  | object fields => simp [accepts]

theorem accepts_filter {kind : FieldKind} {items : List Json} (keep : Json → Bool)
    (h : kind.accepts (.array items) = true) :
    kind.accepts (.array (items.filter keep)) = true := by
  cases kind with
  | manyToMany =>
    rw [accepts, List.all_eq_true] at h ⊢
    exact fun item hitem ↦ h item (List.mem_filter.mp hitem).1
  | foreignKey => exact nomatch h
  | _ => rfl

end FieldKind

/-! ## One row -/

/-- The fields of a row are managed, or they are declared with a kind that accepts their value. -/
def Model.Conforms (m : Model) (row : Row) : Prop :=
  ∀ name value, row.get? name = some value → isManaged name = false →
    ∃ spec, m.field? name = some spec ∧ spec.kind.accepts value = true

namespace Model

variable {m : Model} {row changes stored : Row} {identity : Identity} {now : Instant}

theorem conforms_of_acceptBody {body : Json} (h : m.acceptBody body = .ok changes) :
    m.Conforms changes := by
  intro name value hvalue _
  obtain ⟨_, spec, -, -, hspec, -, haccepts⟩ := exists_of_get?_acceptBody h hvalue
  exact ⟨spec, hspec, haccepts⟩

theorem Conforms.insert_id (h : m.Conforms row) (value : Json) :
    m.Conforms (row.insert "id" value) := by
  intro name v hv hname
  rw [Row.get?_insert_id row value hname] at hv
  exact h name v hv hname

theorem Conforms.of_newRow {body : Json} (h : m.newRow identity now body = .ok row) :
    m.Conforms row := by
  obtain ⟨changes, hchanges, -, rfl⟩ := exists_of_newRow h
  intro name value hvalue hname
  rw [changes.get?_stampCreated identity now hname] at hvalue
  exact conforms_of_acceptBody hchanges name value hvalue hname

theorem Conforms.of_changedRow {mode : UpdateMode} (hstored : m.Conforms stored)
    (hchanges : m.Conforms changes)
    (h : m.changedRow mode identity now stored changes = .ok row) : m.Conforms row := by
  intro name value hvalue hname
  cases mode with
  | patch =>
    rw [get?_of_patch h (not_mem_updateStamps hname), Option.or_eq_some_iff] at hvalue
    rcases hvalue with hgiven | ⟨-, hkept⟩
    · exact hchanges name value hgiven hname
    · exact hstored name value hkept hname
  | replace =>
    rw [get?_of_replace h (not_mem_updateStamps hname), hname, if_neg Bool.false_ne_true] at hvalue
    exact hchanges name value hvalue hname

theorem Conforms.of_unlinkedRow {requester : Except Fault Identity} {field itemModel item : String}
    (hstored : m.Conforms stored)
    (h : m.unlinkedRow requester now stored field itemModel item = .ok row) : m.Conforms row := by
  intro name value hvalue hname
  rcases get?_of_unlinkedRow h (not_mem_updateStamps hname) with
    hsame | ⟨items, keep, hitems, hleft⟩
  · exact hstored name value (hsame.symm.trans hvalue) hname
  · obtain ⟨spec, hspec, haccepts⟩ := hstored name _ hitems hname
    obtain rfl := Option.some.inj (hleft.symm.trans hvalue)
    exact ⟨spec, hspec, FieldKind.accepts_filter keep haccepts⟩

end Model

/-! ## Steps of a row -/

namespace Service

variable {service : Service} {now : Instant} {s : Store} {request : Request} {m : Model} {id : Int}
  {operation : Operation} {path : List String} {found row : Row} {before : Option Row}

theorem RowStep.conforms (h : service.RowStep now request m id operation path before (some row))
    (hbefore : ∀ found, before = some found → m.Conforms found) : m.Conforms row := by
  cases h with
  | create hbody hidentity hrow => exact (Model.Conforms.of_newRow hrow).insert_id _
  | update hid hbody hrow =>
    obtain ⟨identity, changes, -, hchanges, hchanged⟩ := Model.exists_of_updatedRow hrow
    have hgiven := Model.conforms_of_acceptBody hchanges
    exact ((hbefore _ rfl).of_changedRow hgiven hchanged).insert_id _
  | unlink hid hrow => exact ((hbefore _ rfl).of_unlinkedRow hrow).insert_id _

theorem RowStep.stamps (h : service.RowStep now request m id operation path none (some row)) :
    operation = .create ∧ path = [] ∧ ∃ identity,
      service.identification.identify request.headers = .ok identity ∧
      row.get? "created_time" = some (.text now.render) ∧
      row.get? "created_by" = some identity.auditValue ∧
      row.get? "version_number" = some (.int 1) := by
  cases h with
  | @create identity _ _ hbody hidentity hrow =>
    obtain ⟨changes, -, -, rfl⟩ := Model.exists_of_newRow hrow
    refine ⟨rfl, rfl, identity, hidentity, ?_⟩
    simp [Row.stampCreated]

/-- A stamp of the creation is no array, so an update leaves it as it is. -/
theorem RowStep.get?_stamp
    (h : service.RowStep now request m id operation path (some found) (some row)) {name : String}
    (hname : name ∈ ["created_time", "created_by"]) {stamp : Json}
    (hstamp : found.get? name = some stamp) (harray : ∀ items, stamp ≠ .array items) :
    row.get? name = some stamp := by
  have hfacts : ∀ name ∈ ["created_time", "created_by"],
      name ≠ "id" ∧ name ∉ updateStamps ∧ isManaged name = true := by decide
  obtain ⟨hid, hfree, hmanaged⟩ := hfacts name hname
  cases h with
  | @update mode _ _ _ _ _ hbody hrow =>
    obtain ⟨identity, changes, -, hchanges, hchanged⟩ := Model.exists_of_updatedRow hrow
    rw [Ordered.get?_insert, if_neg hid,
      Model.get?_of_changedRow_of_isManaged hchanges hchanged hmanaged hfree, hstamp]
  | unlink _ hrow =>
    rw [Ordered.get?_insert, if_neg hid]
    rcases Model.get?_of_unlinkedRow hrow hfree with hsame | ⟨items, -, hitems, -⟩
    · rw [hsame, hstamp]
    · exact absurd (Option.some.inj (hstamp.symm.trans hitems)) (harray items)

/-! ## Requests since the creation -/

/-- A request creates the row under an id, where there was none. -/
structure Creates (service : Service) (now : Instant) (s : Store) (request : Request)
    (key : ModelKey) (id : Int) : Prop where
  addressed : service.addressed? request = some (.create, [key.app, key.model])
  success : (service.respond now s request).1.isSuccess = true
  absent : s.get key id = .ok none

theorem Writes.creates (h : service.Writes now s request m id none (some row)) :
    service.Creates now s request m.key id := by
  obtain ⟨operation, path, haddressed, hstep⟩ := h.step
  obtain ⟨rfl, rfl, -⟩ := hstep.stamps
  exact ⟨haddressed, h.success, h.get_before⟩

/-- The stamps of a creation. -/
def StampedBy (now : Instant) (identity : Identity) (row : Row) : Prop :=
  row.get? "created_time" = some (.text now.render) ∧
    row.get? "created_by" = some identity.auditValue

theorem Writes.stampedBy {identity : Identity} {created : Instant}
    (h : service.Writes now s request m id (some found) (some row))
    (hfound : StampedBy created identity found) : StampedBy created identity row := by
  obtain ⟨operation, path, -, hstep⟩ := h.step
  have hby : ∀ items, identity.auditValue ≠ .array items := by
    intro items
    rw [Identity.auditValue]
    cases identity.auditName? <;> exact nofun
  exact ⟨hstep.get?_stamp (by decide) hfound.1 nofun, hstep.get?_stamp (by decide) hfound.2 hby⟩

variable {r : Registry} {requests earlier later : List (Instant × Request)}
  {first : Instant × Request} {identity : Identity}

/-- How many requests updated the row of an id after a first one was answered. -/
def updatesSince (service : Service) (r : Registry) (key : ModelKey) (id : Int)
    (earlier : List (Instant × Request)) (first : Instant × Request)
    (later : List (Instant × Request)) : Nat :=
  service.updateCount key id (service.after (.new r) (earlier ++ [first])) later

/-- A row under an id goes back to the request that created it. Since then there was always a row
with the stamps of this request, and the version of the row counts the updates. -/
structure Descends (service : Service) (r : Registry) (key : ModelKey) (id : Int)
    (earlier : List (Instant × Request)) (first : Instant × Request)
    (later : List (Instant × Request)) (identity : Identity) (row : Row) : Prop where
  creates : service.Creates first.1 (service.after (.new r) earlier) first.2 key id
  identified : service.identification.identify first.2.headers = .ok identity
  stands : service.StandsSince r key id (StampedBy first.1 identity) earlier first later
  stamped : StampedBy first.1 identity row
  version : (1 + service.updatesSince r key id earlier first later : Int) ≤ Text.int64Max →
    row.get? "version_number" = some (.int (1 + service.updatesSince r key id earlier first later))

theorem updatesSince_concat (service : Service) (r : Registry) (key : ModelKey) (id : Int)
    (earlier later : List (Instant × Request)) (first : Instant × Request) (now : Instant)
    (request : Request) :
    service.updatesSince r key id earlier first (later ++ [(now, request)])
      = service.updatesSince r key id earlier first later
        + (service.updates key id now (service.after (.new r) (earlier ++ first :: later))
            request).toNat := by
  have hlast : service.after (service.after (.new r) (earlier ++ [first])) later
      = service.after (.new r) (earlier ++ first :: later) := by
    rw [← after_append, List.append_assoc, List.singleton_append]
  rw [updatesSince, updateCount_concat, hlast, updatesSince]

theorem Descends.updated
    (h : service.Descends r m.key id earlier first later identity found)
    (hwrites : service.Writes now (service.after (.new r) (earlier ++ first :: later)) request m id
      (some found) (some row)) :
    service.Descends r m.key id earlier first (later ++ [(now, request)]) identity row where
  creates := h.creates
  identified := h.identified
  stands := h.stands.concat (by rw [after_concat, hwrites.get_after]) (hwrites.stampedBy h.stamped)
  stamped := hwrites.stampedBy h.stamped
  version := by
    have hcounts : ((some found).isSome && (some row).isSome).toNat = 1 := rfl
    rw [updatesSince_concat, hwrites.updates_eq, hcounts, Int.natCast_succ]
    intro hbound
    obtain ⟨operation, path, -, hstep⟩ := hwrites.step
    have hbefore : (1 + service.updatesSince r m.key id earlier first later : Int)
        ≤ Text.int64Max := by omega
    have hversion := Row.version_eq_of_get? (Text.isInt64_of_nonneg (by omega) hbefore)
      (h.version hbefore)
    rw [hstep.numbered.get?_of_changed, hversion, Int.add_assoc]

theorem Descends.kept
    (h : service.Descends r m.key id earlier first later identity row)
    (hstays : (service.after (.new r) (earlier ++ first :: later ++ [(now, request)])).get m.key id
      = .ok (some row))
    (hquiet : service.updates m.key id now (service.after (.new r) (earlier ++ first :: later))
      request = false) :
    service.Descends r m.key id earlier first (later ++ [(now, request)]) identity row where
  creates := h.creates
  identified := h.identified
  stands := h.stands.concat hstays h.stamped
  stamped := h.stamped
  version := by
    rw [updatesSince_concat, hquiet]
    exact h.version

/-- A stored row goes back to one of the requests that were answered. -/
theorem Lineage.exists_descends (h : service.Lineage r m id requests row) :
    ∃ earlier first later identity, requests = earlier ++ first :: later ∧
      service.Descends r m.key id earlier first later identity row := by
  have hget := h.get
  induction h with
  | @created earlier now request row hwrites =>
    obtain ⟨operation, path, -, hstep⟩ := hwrites.step
    obtain ⟨-, -, identity, hidentity, htime, hby, hversion⟩ := hstep.stamps
    exact ⟨earlier, (now, request), [], identity, rfl, {
      creates := hwrites.creates
      identified := hidentity
      stands := standsSince_nil hget ⟨htime, hby⟩
      stamped := ⟨htime, hby⟩
      version := fun _ ↦ hversion }⟩
  | @updated past now request found row hlineage hwrites ih =>
    obtain ⟨earlier, first, later, identity, rfl, hdescends⟩ := ih hlineage.get
    exact ⟨earlier, first, later ++ [(now, request)], identity, by simp, hdescends.updated hwrites⟩
  | @kept past now request row hlineage hstays hquiet ih =>
    obtain ⟨earlier, first, later, identity, rfl, hdescends⟩ := ih hlineage.get
    exact ⟨earlier, first, later ++ [(now, request)], identity, by simp,
      hdescends.kept hstays hquiet⟩

/-- Over any requests, beginning with an empty store, the rows of a model that declares the managed
fields, as every model does that is read from a declaration, are well formed. All fields of a row
are declared. A foreign key is missing or holds null or an id, and a many-to-many field is missing
or holds an array of ids, unless they are managed. And the row goes back to the request that created
it: it has the stamps of this request, and its version is one more than the number of updates since
then, as long as this is an integer of 64 bits. -/
theorem stored_rows_are_well_formed (service : Service) (r : Registry)
    (requests : List (Instant × Request)) (m : Model) (hm : m ∈ r.models)
    (hmanaged : m.DeclaresManaged) (id : Int) (row : Row)
    (hrow : (service.after (.new r) requests).get m.key id = .ok (some row)) :
    (∀ name ∈ row.keys, m.hasField name = true) ∧
    (∀ name spec value, m.field? name = some spec → isManaged name = false →
      row.get? name = some value →
        (spec.kind = .foreignKey → value = .null ∨ value.IsId) ∧
        (spec.kind = .manyToMany → ∃ items, value = .array items ∧ ∀ item ∈ items, item.IsId)) ∧
    ∃ earlier first later identity, requests = earlier ++ first :: later ∧
      service.Descends r m.key id earlier first later identity row := by
  have hlineage := service.lineage_of_get ((r.get?_eq_some_iff _ _).mpr ⟨hm, rfl⟩) hrow
  have hconforms : m.Conforms row := hlineage.invariant RowStep.conforms
  refine ⟨fun name hname ↦ ?_, fun name spec value hspec hfree hvalue ↦ ?_,
    hlineage.exists_descends⟩
  · obtain ⟨value, hvalue⟩ := Ordered.mem_keys_iff.mp hname
    cases hkind : isManaged name with
    | true => exact hmanaged name (List.contains_iff_mem.mp hkind)
    | false =>
      obtain ⟨spec, hspec, -⟩ := hconforms name value hvalue hkind
      exact Option.isSome_of_eq_some hspec
  · obtain ⟨spec', hspec', haccepts⟩ := hconforms name value hvalue hfree
    obtain rfl := Option.some.inj (hspec.symm.trans hspec')
    refine ⟨fun hkind ↦ ?_, fun hkind ↦ ?_⟩
    · rw [hkind] at haccepts
      exact FieldKind.accepts_foreignKey_iff.mp haccepts
    · rw [hkind] at haccepts
      exact FieldKind.accepts_manyToMany_iff.mp haccepts

end Service

/-! ## A note that is handed over -/

namespace Notes

theorem declaresManaged_note : note.DeclaresManaged := by
  have hdeclared : ∀ name ∈ managedFields, note.hasField name = true := by decide +kernel
  exact hdeclared

/-- A note is created and handed over. It has the second version, and goes back to its creation. -/
theorem handed_over_note_is_well_formed :
    let service : Service := {}
    let requests : List (Instant × Request) :=
      [(⟨0, 0⟩, creating 7), (⟨1, 0⟩, replacing 9 (EntityTag.ofVersion 1))]
    ∃ row, (service.after (.new registry) requests).get note.key 1 = .ok (some row) ∧
      row.version = 2 ∧ (∀ name ∈ row.keys, note.hasField name = true) ∧
      (∀ value, row.get? "owner" = some value → value = .null ∨ value.IsId) ∧
      ∃ earlier first later identity, requests = earlier ++ first :: later ∧
        service.Descends registry note.key 1 earlier first later identity row := by
  intro service requests
  have hstate : firstNote (service.after (.new registry) requests) = some (2, some 9) := by
    decide +kernel
  obtain ⟨row, hrow, hversion, -⟩ := exists_firstNote hstate
  obtain ⟨n, hn, hget⟩ := Store.get_of_rowAt hrow
  obtain rfl : (1 : Int) = n := Option.some.inj hn
  have howner : note.field? "owner" = some ⟨.foreignKey, some ⟨"auth", "user"⟩⟩ := by
    decide +kernel
  obtain ⟨hkeys, hvalues, hdescends⟩ := service.stored_rows_are_well_formed registry requests note
    (by simp [registry]) declaresManaged_note 1 row hget
  exact ⟨row, hget, hversion, hkeys,
    fun value hvalue ↦ (hvalues _ _ value howner (by decide) hvalue).1 rfl, hdescends⟩

end Notes

end RowAccess

import RowAccess.Proofs.Query.Agreement
import RowAccess.Proofs.Query.RelatedIds
import RowAccess.Proofs.Query.Showing
import RowAccess.Proofs.Rest.Conformity
import RowAccess.Proofs.Rest.ReadBack

/-!
# Unlinking an item

A request that unlinks an item rewrites one field of one row: the item goes, however often it was
there, and the others keep their order. A list request derives from the rewritten field what the row
leads to. So a filter by the id of the item lists the row no more, whatever else it asks for, and a
filter by the id of any other row selects it as before (`Service.unlinking_removes_item`).

A field with an empty name can be unlinked from, but not filtered by: the filter key would begin
with an underscore, and such keys are reserved.
-/

namespace RowAccess

/-! ## Ids in a field -/

theorem Json.exists_map_int {items : List Json} (h : ∀ item ∈ items, item.IsId) :
    ∃ ids : List Int, items = ids.map .int := by
  induction items with
  | nil => exact ⟨[], rfl⟩
  | cons item rest ih =>
    obtain ⟨⟨n, -, rfl⟩, hrest⟩ := List.forall_mem_cons.mp h
    obtain ⟨ids, rfl⟩ := ih hrest
    exact ⟨n :: ids, rfl⟩

namespace Row

/-- A row holds a list of ids in a field, or it does not have the field. -/
def HasIds (row : Row) (field : String) (ids : Option (List Int)) : Prop :=
  row.get? field = ids.map fun ids ↦ .array (ids.map .int)

/-- Ids without one of them. -/
def withoutId (item : Int) (ids : List Int) : List Int := ids.filter fun n ↦ n ≠ item

variable {row : Row} {field : String} {ids : Option (List Int)} {item : Int}

theorem HasIds.holdsId_iff (h : row.HasIds field ids) {n : Int} :
    (row.valueOf field).holdsId n = true ↔ Text.isInt64 n = true ∧ ∃ held ∈ ids, n ∈ held := by
  rw [valueOf, h]
  cases ids with
  | none =>
    constructor
    · exact fun hholds ↦ absurd hholds Bool.false_ne_true
    · rintro ⟨-, held, hnone, -⟩
      cases hnone
  | some held => simp [Json.holdsId, Json.asInt64?_int_eq_some_iff, and_comm]

/-- Taking an item out of a field of ids takes all its occurrences, and leaves the other ids in
their order. -/
theorem HasIds.removeItem (h : row.HasIds field ids) (hitem : Text.isInt64 item = true) :
    (row.removeItem field item).HasIds field (ids.map (withoutId item)) := by
  rw [HasIds] at h ⊢
  rw [Row.removeItem, h]
  cases ids with
  | none => exact h
  | some held =>
    have hkeeps : ∀ n, ((Json.int n).asInt64? != some item) = decide (n ≠ item) := fun n ↦ by
      rw [Bool.eq_iff_iff, bne_iff_ne, decide_eq_true_iff, ne_eq, Json.asInt64?_int_eq_some_iff]
      exact ⟨fun hne e ↦ hne ⟨hitem, e⟩, fun hne e ↦ hne e.2⟩
    dsimp only [Option.map_some]
    rw [Ordered.get?_insert, if_pos rfl, List.filter_map, withoutId]
    congr 4
    exact funext hkeeps

theorem get?_removeItem_of_ne (row : Row) (item : Int) {name : String} (hname : name ≠ field) :
    (row.removeItem field item).get? name = row.get? name :=
  (row.get?_removeItem field item name).resolve_right fun h ↦ hname h.1

theorem exists_hasIds_of_conforms {m : Model} {target : Option ModelKey} (h : m.Conforms row)
    (hlinked : m.field? field = some ⟨.manyToMany, target⟩) (hfield : isManaged field = false) :
    ∃ ids, row.HasIds field ids := by
  cases hvalue : row.get? field with
  | none => exact ⟨none, hvalue⟩
  | some value =>
    obtain ⟨spec, hspec, haccepts⟩ := h field value hvalue hfield
    obtain rfl := Option.some.inj (hlinked.symm.trans hspec)
    obtain ⟨items, rfl, hitems⟩ := FieldKind.accepts_manyToMany_iff.mp haccepts
    obtain ⟨ids, rfl⟩ := Json.exists_map_int hitems
    exact ⟨some ids, hvalue⟩

/-- A row is another one without an item in one of its fields, stamped as the next version. -/
structure Unlinks (found row : Row) (field : String) (item : Int) : Prop where
  items : ∀ ids, found.HasIds field ids → row.HasIds field (ids.map (withoutId item))
  others : ∀ name, name ≠ field → name ∉ updateStamps → row.get? name = found.get? name
  counted : row.get? "version_number" = some (.int (found.version + 1))
  next : found.version < Text.int64Max → row.version = found.version + 1

theorem Unlinks.holdsId_iff {found : Row} (h : found.Unlinks row field item)
    (hids : found.HasIds field ids) {n : Int} :
    (row.valueOf field).holdsId n = true ↔ (found.valueOf field).holdsId n = true ∧ n ≠ item := by
  rw [(h.items ids hids).holdsId_iff, hids.holdsId_iff, and_assoc]
  refine and_congr_right fun _ ↦ ?_
  cases ids with
  | none => simp
  | some held => simp [withoutId]

end Row

/-! ## The row that is written -/

namespace Service

/-- A request asks to take an item out of a field of the row under an id. -/
def AsksToUnlink (service : Service) (request : Request) (key : ModelKey) (id : Int)
    (field : String) (item : Int) : Prop :=
  ∃ segment itemModel itemSegment,
    service.addressed? request
      = some (.unlink, [key.app, key.model, segment, field, itemModel, itemSegment]) ∧
    Text.readInt64? segment = some id ∧ Text.readInt64? itemSegment = some item

variable {service : Service} {now : Instant} {s : Store} {request : Request} {m : Model} {id : Int}
  {field : String} {item : Int}

theorem RowStep.of_unlink {path : List String} {before after : Option Row}
    (h : service.RowStep now request m id .unlink path before after) :
    ∃ segment field itemModel item found row, path = [segment, field, itemModel, item] ∧
      Text.readInt64? segment = some id ∧ before = some found ∧
      after = some (row.insert "id" (.int id)) ∧
      m.unlinkedRow (service.identification.identify request.headers) now found field itemModel item
        = .ok row := by
  generalize hoperation : Operation.unlink = operation at h
  cases h with
  | unlink hid hmade => exact ⟨_, _, _, _, _, _, rfl, hid, rfl, rfl, hmade⟩
  | @update mode => cases mode <;> exact nomatch hoperation
  | create | delete => exact nomatch hoperation

theorem RowStep.unlinks {segment itemModel itemSegment : String} {before after : Option Row}
    (h : service.RowStep now request m id .unlink [segment, field, itemModel, itemSegment] before
      after)
    (hitem : Text.readInt64? itemSegment = some item) (hfield : isManaged field = false)
    (hbefore : ∀ found, before = some found → found.get? "id" = some (.int id)) :
    Text.readInt64? segment = some id ∧
      ∃ found row, before = some found ∧ after = some row ∧ found.Unlinks row field item := by
  have hnumbered := h.numbered
  obtain ⟨_, _, _, _, found, row, hpath, hid, rfl, rfl, hmade⟩ := h.of_unlink
  simp only [List.cons.injEq, and_true] at hpath
  obtain ⟨rfl, rfl, rfl, rfl⟩ := hpath
  obtain ⟨identity, n, -, hn, rfl⟩ := Model.exists_of_unlinkedRow hmade
  obtain rfl := Option.some.inj (hitem.symm.trans hn)
  refine ⟨hid, found, _, rfl, rfl, fun ids hids ↦ ?_, fun name hname hstamps ↦ ?_,
    hnumbered.get?_of_changed, hnumbered.version_of_changed⟩
  · rw [Row.HasIds, Row.get?_insert_id _ _ hfield,
      Row.get?_stamped_of_not_mem _ _ _ (not_mem_updateStamps hfield)]
    exact hids.removeItem (Text.isInt64_of_readInt64? hitem)
  · by_cases hkey : name = "id"
    · rw [hkey, Ordered.get?_insert, if_pos rfl, hbefore found rfl]
    · rw [Ordered.get?_insert, if_neg hkey, Row.get?_stamped_of_not_mem _ _ _ hstamps,
        Row.get?_removeItem_of_ne _ _ hname]

/-- A request that unlinks an item, if it succeeds, writes the row that it finds without the
item. -/
theorem AsksToUnlink.exists_unlinks (hasks : service.AsksToUnlink request m.key id field item)
    (hids : s.KeepsIds) (hm : s.registry.get? m.key = some m) (hfield : isManaged field = false)
    (hsuccess : (service.respond now s request).1.isSuccess = true) :
    ∃ found row,
      s.ChangesOnly (service.respond now s request).2 m.key id (some found) (some row) ∧
      found.Unlinks row field item := by
  obtain ⟨segment, itemModel, itemSegment, haddressed, hid, hitem⟩ := hasks
  obtain ⟨m', id', before, after, hm', hchanges, hstep⟩ :=
    exists_rowStep_of_isSuccess haddressed (by decide) hsuccess
  obtain rfl := Option.some.inj (hm.symm.trans hm')
  obtain ⟨hid', found, row, rfl, rfl, hunlinks⟩ := hstep.unlinks hitem hfield fun found hbefore ↦
    hids _ _ _ (hbefore ▸ hchanges.get_before)
  obtain rfl := Option.some.inj (hid.symm.trans hid')
  exact ⟨found, row, hchanges, hunlinks⟩

theorem exists_hasIds_of_get_after (service : Service) {r : Registry}
    (requests : List (Instant × Request)) {target : Option ModelKey} {row : Row}
    (hm : r.get? m.key = some m) (hlinked : m.field? field = some ⟨.manyToMany, target⟩)
    (hfield : isManaged field = false)
    (hrow : (service.after (.new r) requests).get m.key id = .ok (some row)) :
    ∃ ids, row.HasIds field ids :=
  Row.exists_hasIds_of_conforms ((service.lineage_of_get hm hrow).invariant RowStep.conforms)
    hlinked hfield

/-- An unlink request that succeeds writes the row of the path without the item, as the next
version. If the field held ids, as in every store that requests lead to, then no list request that
filters by the item lists the row, and a filter by any other id selects it if and only if it did
before. -/
theorem unlinking_removes_item (service : Service) (now : Instant) (s : Store) (request : Request)
    (m other : Model) (id : Int) (field : String) (item : Int) (hids : s.KeepsIds)
    (hlinks : s.registry.LinksRows m other field) (hfield : isManaged field = false)
    (hasks : service.AsksToUnlink request m.key id field item)
    (hstatus : (service.respond now s request).1.status = 204) :
    let s' := (service.respond now s request).2
    ∃ found row, s.ChangesOnly s' m.key id (some found) (some row) ∧
      found.Unlinks row field item ∧
      ∀ ids, found.HasIds field ids →
        (∀ now' request' identity visibility t rows,
          service.Lists now' s' request' m.key.app m.key.model m identity visibility t rows →
          (itemKey field, Text.writeInt item) ∈ request'.pairs → row ∉ rows) ∧
        ∀ n, n ≠ item → ∃ rows rows',
          s.selectedBy m (itemKey field) (Text.writeInt n) = .ok rows ∧
          s'.selectedBy m (itemKey field) (Text.writeInt n) = .ok rows' ∧
          (row ∈ rows' ↔ found ∈ rows) := by
  intro s'
  have hsuccess : (service.respond now s request).1.isSuccess = true := by
    rw [Response.isSuccess, hstatus]
    rfl
  obtain ⟨found, row, hchanges, hunlinks⟩ :=
    hasks.exists_unlinks hids hlinks.registered hfield hsuccess
  have hids' : s'.KeepsIds := service.keepsIds_respond now request hids
  have hlinks' : s'.registry.LinksRows m other field := by rwa [hchanges.registry]
  refine ⟨found, row, hchanges, hunlinks, fun ids hitems ↦ ⟨?_, fun n hn ↦ ?_⟩⟩
  · intro now' request' identity visibility t rows hlists hpair hrow
    have hholds := hlinks'.holdsId_of_lists hids' hlists hpair hrow
    exact ((hunlinks.holdsId_iff hitems).mp hholds).2 rfl
  · obtain ⟨rows, hrows, hmem⟩ := hlinks.exists_selectedBy_item hids n
    obtain ⟨rows', hrows', hmem'⟩ := hlinks'.exists_selectedBy_item hids' n
    refine ⟨rows, rows', hrows, hrows', ?_⟩
    rw [hmem' _ _ hchanges.get_after, hmem _ _ hchanges.get_before, hchanges.exists_get_iff,
      hunlinks.holdsId_iff hitems, and_iff_left hn]

end Service

/-! ## Folders that lose a part -/

namespace Folders

/-- The part `2` is taken out of the folder `4`. -/
def unlinking : Request where
  method := "PATCH"
  target := "/core/folder/4/parts/delete/folder/2"
  headers := Notes.editor

/-- A request for the folders with the part `2`. -/
def withUnlinkedPart : Request where
  method := "GET"
  target := "/core/folder?parts__id=2"

theorem linksRows_parts : store.registry.LinksRows folder folder "parts" where
  registered := get?_folder
  target := get?_folder
  notIdentity := by decide +kernel
  numbered := by decide +kernel
  linked := by decide +kernel
  nonempty := by decide
  segment := by
    rw [IsSegment]
    decide +kernel
  head := by decide
  last := by decide

/-- The folder `4` keeps its parts `1` and `3`, of which the first one is missing, and is no more
listed among the folders with the part `2`. It is still selected by the part `3`. -/
theorem folder_without_part :
    let service : Service := {}
    let s' := (service.respond ⟨0, 0⟩ store unlinking).2
    ∃ row, s'.get folder.key 4 = .ok (some row) ∧
      row.HasIds "parts" (some [1, 3]) ∧ row.version = 1 ∧
      (∃ rows, s'.selectedBy folder "parts__id" "3" = .ok rows ∧ row ∈ rows) ∧
      ∃ window rows,
        Service.responseOf (service.perform ⟨1, 0⟩ s' withUnlinkedPart .list ["core", "folder"])
          = folder.listResponse (.ofPairs withUnlinkedPart.pairs) window rows ∧ row ∉ rows := by
  intro service s'
  have hids : store.KeepsIds := identified_store.keepsIds
  obtain ⟨haddressed, hstatus, hlisted⟩ : service.addressed? unlinking
        = some (.unlink, ["core", "folder", "4", "parts", "folder", "2"]) ∧
      (service.respond ⟨0, 0⟩ store unlinking).1.status = 204 ∧
      (Service.responseOf
        (service.perform ⟨1, 0⟩ s' withUnlinkedPart .list ["core", "folder"])).status = 200 := by
    decide +kernel
  obtain ⟨found, row, hchanges, hunlinks, hselects⟩ := service.unlinking_removes_item ⟨0, 0⟩ store
    unlinking folder folder 4 "parts" 2 hids linksRows_parts (by decide)
    ⟨"4", "folder", "2", haddressed, by decide, by decide⟩ hstatus
  have htorn : store.get folder.key 4 = .ok (some torn) := rfl
  obtain rfl : torn = found :=
    Option.some.inj (Except.ok.inj (htorn.symm.trans hchanges.get_before))
  have hitems : torn.HasIds "parts" (some [1, 2, 3]) := rfl
  obtain ⟨hgone, hkept⟩ := hselects _ hitems
  refine ⟨row, hchanges.get_after, hunlinks.items _ hitems, hunlinks.next (by decide +kernel), ?_,
    ?_⟩
  · obtain ⟨rows, rows', hrows, hrows', hsame⟩ := hkept 3 (by decide)
    obtain ⟨_, hselected, hmem⟩ := linksRows_parts.exists_selectedBy_item hids 3
    obtain rfl := Except.ok.inj (hrows.symm.trans hselected)
    exact ⟨rows', hrows', hsame.mpr ((hmem 4 torn htorn).mpr ⟨⟨_, rfl⟩, by decide +kernel⟩)⟩
  · obtain ⟨m, identity, visibility, t, rows, hlists⟩ := Service.exists_lists hlisted
    obtain ⟨window, hshown⟩ := hlists.shown
    have hfolder : s'.registry.get? folder.key = some folder := by
      rw [hchanges.registry]
      exact get?_folder
    obtain rfl : folder = m := Option.some.inj (hfolder.symm.trans hlists.addressed)
    exact ⟨window, rows, hshown, hgone _ _ _ _ _ _ hlists (by decide +kernel)⟩

/-- Folders whose parts are in a field without a name. -/
def unnamed : Model where
  key := ⟨"core", "folder"⟩
  tier := .public
  fields := implicitFields.insertAll [("", ⟨.manyToMany, some ⟨"core", "folder"⟩⟩)]

def unnamedRegistry : Registry where
  settings := {}
  identityModel := ⟨"auth", "user"⟩
  models := [unnamed]
  distinct := by decide

/-- A folder is created. -/
def creating (body : String) : Request where
  method := "POST"
  target := "/core/folder/create"
  headers := Notes.editor
  body := body

/-- The part `1` is taken out of the folder `2`, from the field without a name. -/
def unlinkingUnnamed : Request := { unlinking with target := "/core/folder/2//delete/folder/1" }

/-- A request for the folders with the part `1` in the field without a name. -/
def withUnnamedPart : Request where
  method := "GET"
  target := "/core/folder?__id=1"

/-- A folder is created, and another one with the first as its part in the field without a name. The
key of this field and an id is reserved, so the folder that has lost its part is still listed by
it. -/
theorem unnamed_part_still_listed :
    let service : Service := {}
    let s := service.after (.new unnamedRegistry)
      [(⟨0, 0⟩, creating "\x7b\x7d"), (⟨1, 0⟩, creating "\x7b\"\":[1]\x7d")]
    let outcome := service.respond ⟨2, 0⟩ s unlinkingUnnamed
    (unnamed.field? "" = some ⟨.manyToMany, some unnamed.key⟩ ∧
      (unnamed.field? "id").map FieldSpec.kind = some .auto ∧
      unnamedRegistry.isIdentity unnamed.key = false ∧ isManaged "" = false ∧ IsSegment "" ∧
      "".toList.head? ≠ some '_' ∧ "".toList.getLast? ≠ some '_') ∧
      service.AsksToUnlink unlinkingUnnamed unnamed.key 2 "" 1 ∧ outcome.1.status = 204 ∧
      ∃ row identity visibility t rows, outcome.2.get unnamed.key 2 = .ok (some row) ∧
        (row.valueOf "").holdsId 1 = false ∧
        (itemKey "", Text.writeInt 1) ∈ withUnnamedPart.pairs ∧
        service.Lists ⟨3, 0⟩ outcome.2 withUnnamedPart "core" "folder" unnamed identity visibility t
          rows ∧
        row ∈ rows := by
  intro service s outcome
  obtain ⟨haddressed, hstatus, hvalue, hlisted⟩ : service.addressed? unlinkingUnnamed
        = some (.unlink, ["core", "folder", "2", "", "folder", "1"]) ∧ outcome.1.status = 204 ∧
      (outcome.2.get unnamed.key 2).toOption.map
        (Option.map fun row ↦ (row.valueOf "").holdsId 1) = some (some false) ∧
      (Service.responseOf (service.perform ⟨3, 0⟩ outcome.2 withUnnamedPart .list
        ["core", "folder"])).status = 200 := by
    decide +kernel
  refine ⟨⟨by decide +kernel, by decide +kernel, by decide +kernel, by decide,
      by rw [IsSegment]; decide, by decide, by decide⟩,
    ⟨"2", "folder", "1", haddressed, by decide, by decide⟩, hstatus, ?_⟩
  obtain ⟨_, hfound, hvalue⟩ := Outcome.toOption_map_eq_some_iff.mp hvalue
  obtain ⟨row, rfl, hlost⟩ := Option.map_eq_some_iff.mp hvalue
  obtain ⟨m, identity, visibility, t, rows, hlists⟩ := Service.exists_lists hlisted
  have hregistry : outcome.2.registry = unnamedRegistry :=
    (service.registry_respond ⟨2, 0⟩ s unlinkingUnnamed).trans
      (service.registry_after (.new unnamedRegistry) _)
  have hunnamed : unnamedRegistry.get? ⟨"core", "folder"⟩ = some unnamed :=
    (unnamedRegistry.get?_eq_some_iff _ _).mpr ⟨List.mem_singleton_self unnamed, rfl⟩
  obtain rfl : unnamed = m :=
    Option.some.inj (hunnamed.symm.trans (hregistry ▸ hlists.addressed))
  obtain rfl : .always = visibility := Except.ok.inj (hregistry ▸ hlists.visible)
  refine ⟨row, identity, _, t, rows, hfound, hlost, by decide +kernel, hlists,
    hlists.mem_rows.mpr ⟨?_, ?_⟩⟩
  · exact Table.mem_rows_of_get? ((Store.get_eq_ok_iff_of_table hlists.table).mp hfound)
  · have hfilters : (Parameters.ofPairs withUnnamedPart.pairs).filters = [] := by decide +kernel
    have hempty : ∀ mode, compileParameters (.ofPairs withUnnamedPart.pairs) outcome.2.registry
        unnamed mode = {} := fun mode ↦ by
      rw [compileParameters_eq_ofParts, Parameters.parts, hfilters]
      rfl
    rw [Registry.planUnder, hempty, hempty, Plan.keeps_combine_empty]
    exact outcome.2.holds_always

end Folders

end RowAccess

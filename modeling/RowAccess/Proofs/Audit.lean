import RowAccess.Proofs.Outcome
import RowAccess.Rest.Writing

/-!
# Fields of the rows that are stored

A body may name managed fields, but what it says about them is dropped. So an update finds them as
they are stored, and changes none of them but by its stamps: the row it stores has the next version
of the row it found. Every other field of a row was given by a body, whose value its kind accepted.
-/

namespace RowAccess

/-! ## Managed fields -/

namespace Row

theorem get?_copyField (stored row : Row) (field name : String) :
    (copyField stored row field).get? name
      = if name = field then stored.get? name else row.get? name := by
  rw [copyField]
  by_cases hname : name = field
  · subst hname
    cases stored.get? name <;> simp
  · cases stored.get? field <;> simp [hname]

/-- A row that takes over its managed fields has those of the other row and its own other fields. -/
theorem get?_carryOver (row stored : Row) (name : String) :
    (row.carryOver stored).get? name
      = if isManaged name then stored.get? name else row.get? name := by
  have hfields : ∀ (fields : List String) (row : Row),
      (fields.foldl (copyField stored) row).get? name
        = if name ∈ fields then stored.get? name else row.get? name := by
    intro fields
    -- The fields are copied one by one, and a later copy leaves the earlier ones alone.
    induction fields with
    | nil => exact fun row ↦ (if_neg List.not_mem_nil).symm
    | cons field rest ih =>
      intro row
      rw [List.foldl_cons, ih, get?_copyField]
      by_cases hrest : name ∈ rest
      · rw [if_pos hrest, if_pos (List.mem_cons_of_mem _ hrest)]
      · by_cases hname : name = field
        · rw [if_neg hrest, if_pos hname, if_pos (hname ▸ List.mem_cons_self)]
        · rw [if_neg hrest, if_neg hname, if_neg (by simp [hname, hrest])]
  rw [carryOver, hfields, isManaged]
  simp only [List.contains_iff_mem]

theorem get?_stampModified (row : Row) (identity : Identity) (now : Instant) {name : String}
    (htime : name ≠ "last_modified_time") (hby : name ≠ "last_modified_by") :
    (row.stampModified identity now).get? name = row.get? name := by
  rw [stampModified, Ordered.get?_insert, if_neg hby, Ordered.get?_insert, if_neg htime]

theorem version_congr {row other : Row}
    (h : row.get? "version_number" = other.get? "version_number") :
    row.version = other.version := by
  rw [version, version, h]

theorem isInt64_version (row : Row) : Text.isInt64 row.version = true := by
  rw [version]
  cases hstored : (row.get? "version_number").bind Json.asInt64? with
  | none => rfl
  | some n =>
    obtain ⟨value, -, hn⟩ := Option.bind_eq_some_iff.mp hstored
    exact (Json.asInt64?_eq_some_iff.mp hn).1

theorem version_eq_of_get? {row : Row} {n : Int} (hn : Text.isInt64 n = true)
    (h : row.get? "version_number" = some (.int n)) : row.version = n := by
  rw [version, h, Option.bind_some, Json.asInt64?_eq_some_iff.mpr ⟨hn, rfl⟩, Option.getD_some]

theorem get?_bumpVersion (row : Row) :
    row.bumpVersion.get? "version_number" = some (.int (row.version + 1)) := by
  rw [bumpVersion, Ordered.get?_insert, if_pos rfl]

theorem version_stampModified (row : Row) (identity : Identity) (now : Instant) :
    (row.stampModified identity now).version = row.version :=
  version_congr (row.get?_stampModified identity now (by decide) (by decide))

theorem version_stampCreated (row : Row) (identity : Identity) (now : Instant) :
    (row.stampCreated identity now).version = 1 :=
  version_eq_of_get? rfl (by rw [stampCreated, Ordered.get?_insert, if_pos rfl])

theorem version_insert_id (row : Row) (value : Json) :
    Row.version (row.insert "id" value) = row.version :=
  version_congr (by rw [Ordered.get?_insert, if_neg (by decide)])

theorem get?_removeItem (row : Row) (field : String) (item : Int) (name : String) :
    (row.removeItem field item).get? name = row.get? name ∨
      name = field ∧ ∃ items, row.get? name = some (.array items) ∧
        (row.removeItem field item).get? name
          = some (.array (items.filter fun v ↦ v.asInt64? != some item)) := by
  rw [removeItem]
  split
  · next items hstored =>
    rw [Ordered.get?_insert]
    by_cases hname : name = field
    · subst hname
      exact .inr ⟨rfl, items, hstored, if_pos rfl⟩
    · exact .inl (if_neg hname)
  · exact .inl rfl

theorem version_removeItem (row : Row) (field : String) (item : Int) :
    (row.removeItem field item).version = row.version := by
  rcases row.get?_removeItem field item "version_number" with hsame | ⟨-, items, hstored, hfiltered⟩
  · exact version_congr hsame
  · rw [version, version, hstored, hfiltered]
    rfl

end Row

namespace Model

variable {m : Model}

/-- A field of a body adds nothing to a row but itself, if requests can write it and its kind
accepts the value. -/
theorem get?_of_acceptField {row row' : Row} {key : String} {given : Json}
    (h : m.acceptField row key given = .ok row') {name : String} {value : Json}
    (hvalue : row'.get? name = some value) :
    row.get? name = some value ∨ (name, value) = (key, given) ∧ ∃ spec,
      m.field? name = some spec ∧ isManaged name = false ∧ spec.kind.accepts value = true := by
  rw [acceptField] at h
  split at h
  · exact nomatch h
  · next spec hspec =>
    split at h
    · exact .inl (Except.ok.inj h ▸ hvalue)
    · next hmanaged =>
      split at h
      · next haccepts =>
        rw [← Except.ok.inj h, Ordered.get?_insert] at hvalue
        by_cases hname : name = key
        · rw [if_pos hname] at hvalue
          subst hname
          obtain rfl := Option.some.inj hvalue
          exact .inr ⟨rfl, spec, hspec, Bool.eq_false_iff.mpr hmanaged, haccepts⟩
        · rw [if_neg hname] at hvalue
          exact .inl hvalue
      · exact nomatch h

/-- What a body writes are fields that it names and that requests can write, with values that their
kinds accept. -/
theorem exists_of_get?_acceptBody {body : Json} {changes : Row}
    (h : m.acceptBody body = .ok changes) {name : String} {value : Json}
    (hvalue : changes.get? name = some value) :
    ∃ fields spec, body = .object fields ∧ (name, value) ∈ fields ∧ m.field? name = some spec ∧
      isManaged name = false ∧ spec.kind.accepts value = true := by
  cases body with
  | object fields =>
    -- Every field of the row that is built up was accepted when it was written.
    have hfields : ∀ value, changes.get? name = some value → (name, value) ∈ fields ∧ ∃ spec,
        m.field? name = some spec ∧ isManaged name = false ∧ spec.kind.accepts value = true := by
      refine Outcome.foldlM_invariant (P := fun row : Row ↦ ∀ value, row.get? name = some value →
        (name, value) ∈ fields ∧ ∃ spec, m.field? name = some spec ∧ isManaged name = false ∧
          spec.kind.accepts value = true) h nofun ?_
      intro row field row' hfield hrow hstep value hvalue
      rcases get?_of_acceptField hstep hvalue with hbefore | ⟨hsame, haccepted⟩
      · exact hrow value hbefore
      · exact ⟨hsame ▸ hfield, haccepted⟩
    obtain ⟨hmem, spec, haccepted⟩ := hfields value hvalue
    exact ⟨fields, spec, rfl, hmem, haccepted⟩
  | null => exact nomatch h
  | bool b => exact nomatch h
  | number n => exact nomatch h
  | text s => exact nomatch h
  | array items => exact nomatch h

theorem get?_eq_none_of_acceptBody {body : Json} {changes : Row}
    (h : m.acceptBody body = .ok changes) {name : String} (hname : isManaged name = true) :
    changes.get? name = none := by
  cases hvalue : changes.get? name with
  | none => rfl
  | some value =>
    obtain ⟨_, _, -, -, -, hfree, -⟩ := exists_of_get?_acceptBody h hvalue
    exact absurd (hname.symm.trans hfree) (by decide)

/-! ## Rows that are stored -/

theorem requireFields_eq_ok_iff {row : Row} :
    m.requireFields row = .ok () ↔
      ∀ field ∈ m.requiredFields, (row.valueOf field).isNull = false := by
  have hall := List.filter_eq_nil_iff (l := m.requiredFields)
    (p := fun field ↦ (row.valueOf field).isNull)
  simp only [Bool.not_eq_true] at hall
  rw [← hall, requireFields]
  cases m.requiredFields.filter fun field ↦ (row.valueOf field).isNull with
  | nil => exact ⟨fun _ ↦ rfl, fun _ ↦ rfl⟩
  | cons field missing => exact ⟨nofun, nofun⟩

/-- A new row is made of the fields of an acceptable body that has all required ones. -/
theorem exists_of_newRow {identity : Identity} {now : Instant} {body : Json} {row : Row}
    (h : m.newRow identity now body = .ok row) :
    ∃ changes, m.acceptBody body = .ok changes ∧ m.requireFields changes = .ok () ∧
      row = changes.stampCreated identity now := by
  rw [newRow] at h
  obtain ⟨-, h⟩ := Outcome.check_bind_eq_ok_iff.mp h
  obtain ⟨changes, hchanges, h⟩ := Outcome.bind_eq_ok_iff.mp h
  obtain ⟨hrequired, h⟩ := Outcome.check_bind_eq_ok_iff.mp h
  exact ⟨changes, Outcome.mapError_eq_ok_iff.mp hchanges, Outcome.mapError_eq_ok_iff.mp hrequired,
    (Outcome.pure_eq_ok_iff.mp h).symm⟩

/-- An update stores what the fields of an acceptable body make of the row it found. -/
theorem exists_of_updatedRow {mode : UpdateMode} {requester : Except Fault Identity}
    {headers : Headers} {now : Instant} {stored row : Row} {body : Json}
    (h : m.updatedRow mode requester headers now stored body = .ok row) :
    ∃ identity changes, requester = .ok identity ∧ m.acceptBody body = .ok changes ∧
      m.changedRow mode identity now stored changes = .ok row := by
  rw [updatedRow] at h
  obtain ⟨identity, hidentity, h⟩ := Outcome.bind_eq_ok_iff.mp h
  obtain ⟨-, h⟩ := Outcome.check_bind_eq_ok_iff.mp h
  obtain ⟨-, h⟩ := Outcome.check_bind_eq_ok_iff.mp h
  obtain ⟨changes, hchanges, hchanged⟩ := Outcome.bind_eq_ok_iff.mp h
  exact ⟨identity, changes, hidentity, Outcome.mapError_eq_ok_iff.mp hchanges,
    Outcome.mapError_eq_ok_iff.mp hchanged⟩

theorem exists_of_unlinkedRow {requester : Except Fault Identity} {now : Instant}
    {stored row : Row} {field itemModel item : String}
    (h : m.unlinkedRow requester now stored field itemModel item = .ok row) :
    ∃ identity n, requester = .ok identity ∧ Text.readInt64? item = some n ∧
      row = ((stored.removeItem field n).stampModified identity now).bumpVersion := by
  rw [unlinkedRow] at h
  obtain ⟨identity, hidentity, h⟩ := Outcome.bind_eq_ok_iff.mp h
  obtain ⟨-, h⟩ := Outcome.check_bind_eq_ok_iff.mp h
  obtain ⟨-, h⟩ := Outcome.check_bind_eq_ok_iff.mp h
  cases hitem : Text.readInt64? item with
  | none =>
    rw [hitem] at h
    exact nomatch h
  | some n =>
    rw [hitem] at h
    exact ⟨identity, n, hidentity, rfl, (Except.ok.inj h).symm⟩

/-! ## Versions -/

theorem get?_version_of_changedRow {mode : UpdateMode} {identity : Identity} {now : Instant}
    {stored changes row : Row} (hchanges : changes.get? "version_number" = none)
    (h : m.changedRow mode identity now stored changes = .ok row) :
    row.get? "version_number" = some (.int (stored.version + 1)) := by
  cases mode with
  | patch =>
    have hversion : Row.version (stored.insertAll changes.entries) = stored.version :=
      Row.version_congr (by rw [Ordered.get?_insertAll, hchanges, Option.none_or])
    rw [← Except.ok.inj h, Row.get?_bumpVersion, Row.version_stampModified, hversion]
  | replace =>
    have hversion : (changes.carryOver stored).version = stored.version :=
      Row.version_congr (by rw [Row.get?_carryOver, if_pos (by decide)])
    obtain ⟨-, h⟩ := Outcome.check_bind_eq_ok_iff.mp h
    dsimp only at h
    split at h
    · rw [← Except.ok.inj h, Row.get?_bumpVersion, Row.version_stampModified, hversion]
    · rw [← Except.ok.inj h, Row.get?_bumpVersion, hversion]

theorem get?_version_of_updatedRow {mode : UpdateMode} {requester : Except Fault Identity}
    {headers : Headers} {now : Instant} {stored row : Row} {body : Json}
    (h : m.updatedRow mode requester headers now stored body = .ok row) :
    row.get? "version_number" = some (.int (stored.version + 1)) := by
  obtain ⟨identity, changes, -, hchanges, hchanged⟩ := exists_of_updatedRow h
  exact get?_version_of_changedRow (get?_eq_none_of_acceptBody hchanges (by decide)) hchanged

theorem get?_version_of_unlinkedRow {requester : Except Fault Identity} {now : Instant}
    {stored row : Row} {field itemModel item : String}
    (h : m.unlinkedRow requester now stored field itemModel item = .ok row) :
    row.get? "version_number" = some (.int (stored.version + 1)) := by
  obtain ⟨identity, n, -, -, rfl⟩ := exists_of_unlinkedRow h
  rw [Row.get?_bumpVersion, Row.version_stampModified, Row.version_removeItem]

theorem version_of_newRow {identity : Identity} {now : Instant} {body : Json} {row : Row}
    (h : m.newRow identity now body = .ok row) : row.version = 1 := by
  obtain ⟨changes, -, -, rfl⟩ := exists_of_newRow h
  exact changes.version_stampCreated identity now

end Model

/-! ## Other fields -/

/-- The fields that an update stamps. -/
def updateStamps : List String := ["last_modified_time", "last_modified_by", "version_number"]

theorem not_mem_updateStamps {name : String} (h : isManaged name = false) :
    name ∉ updateStamps := by
  have hstamps : ∀ name ∈ updateStamps, isManaged name = true := by decide
  exact fun hmem ↦ absurd ((hstamps name hmem).symm.trans h) (by decide)

namespace Row

theorem get?_bumpVersion_of_ne (row : Row) {name : String} (hname : name ≠ "version_number") :
    row.bumpVersion.get? name = row.get? name := by
  rw [bumpVersion, Ordered.get?_insert, if_neg hname]

theorem get?_bumpVersion_of_not_mem (row : Row) {name : String} (hname : name ∉ updateStamps) :
    row.bumpVersion.get? name = row.get? name := by
  refine row.get?_bumpVersion_of_ne ?_
  rintro rfl
  exact hname (by decide)

theorem get?_stamped_of_not_mem (row : Row) (identity : Identity) (now : Instant) {name : String}
    (hname : name ∉ updateStamps) :
    (row.stampModified identity now).bumpVersion.get? name = row.get? name := by
  have hne : ∀ field ∈ updateStamps, name ≠ field := by
    rintro field hfield rfl
    exact hname hfield
  rw [get?_bumpVersion_of_not_mem _ hname,
    get?_stampModified _ _ _ (hne _ (by decide)) (hne _ (by decide))]

theorem get?_insert_id (row : Row) (value : Json) {name : String}
    (hname : isManaged name = false) :
    Ordered.get? (row.insert "id" value) name = row.get? name := by
  have hid : name ≠ "id" := by
    rintro rfl
    exact absurd hname (by decide)
  rw [Ordered.get?_insert, if_neg hid]

theorem get?_stampCreated (row : Row) (identity : Identity) (now : Instant) {name : String}
    (hname : isManaged name = false) :
    (row.stampCreated identity now).get? name = row.get? name := by
  have hne : ∀ field, isManaged field = true → name ≠ field := by
    rintro field hfield rfl
    exact absurd (hname.symm.trans hfield) (by decide)
  rw [stampCreated, Ordered.get?_insert, if_neg (hne _ (by decide)), Ordered.get?_insert,
    if_neg (hne _ (by decide)), Ordered.get?_insert, if_neg (hne _ (by decide))]

end Row

namespace Model

variable {m : Model} {identity : Identity} {now : Instant} {stored changes row : Row}
  {name : String}

theorem get?_of_patch (h : m.changedRow .patch identity now stored changes = .ok row)
    (hname : name ∉ updateStamps) :
    row.get? name = (changes.get? name).or (stored.get? name) := by
  rw [← Except.ok.inj h, Row.get?_stamped_of_not_mem _ _ _ hname, Ordered.get?_insertAll]

theorem get?_of_replace (h : m.changedRow .replace identity now stored changes = .ok row)
    (hname : name ∉ updateStamps) :
    row.get? name = if isManaged name then stored.get? name else changes.get? name := by
  obtain ⟨-, h⟩ := Outcome.check_bind_eq_ok_iff.mp h
  rw [← Row.get?_carryOver]
  dsimp only at h
  split at h
  · rw [← Except.ok.inj h, Row.get?_stamped_of_not_mem _ _ _ hname]
  · rw [← Except.ok.inj h, Row.get?_bumpVersion_of_not_mem _ hname]

/-- An update leaves the managed fields that it does not stamp as they are. -/
theorem get?_of_changedRow_of_isManaged {mode : UpdateMode} {body : Json}
    (hchanges : m.acceptBody body = .ok changes)
    (h : m.changedRow mode identity now stored changes = .ok row) (hname : isManaged name = true)
    (hstamps : name ∉ updateStamps) : row.get? name = stored.get? name := by
  cases mode with
  | patch =>
    rw [get?_of_patch h hstamps, get?_eq_none_of_acceptBody hchanges hname, Option.none_or]
  | replace => rw [get?_of_replace h hstamps, if_pos hname]

theorem requireFields_of_replace (h : m.changedRow .replace identity now stored changes = .ok row) :
    m.requireFields changes = .ok () :=
  (Outcome.check_bind_eq_ok_iff.mp h).1

theorem get?_of_unlinkedRow {requester : Except Fault Identity} {field itemModel item : String}
    (h : m.unlinkedRow requester now stored field itemModel item = .ok row)
    (hname : name ∉ updateStamps) :
    row.get? name = stored.get? name ∨
      ∃ items keep, stored.get? name = some (.array items) ∧
        row.get? name = some (.array (items.filter keep)) := by
  obtain ⟨identity, n, -, -, rfl⟩ := exists_of_unlinkedRow h
  rw [Row.get?_stamped_of_not_mem _ _ _ hname]
  refine (stored.get?_removeItem field n name).imp_right ?_
  rintro ⟨-, items, hstored, hfiltered⟩
  exact ⟨items, _, hstored, hfiltered⟩

end Model

end RowAccess

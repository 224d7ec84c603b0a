import RowAccess.Proofs.Evaluation.Joining
import RowAccess.Proofs.Store.Reachable

/-!
# Calls of the store

A client of the store sees answers, and a refused call has an answer too. Here the operations that
write are read as calls, each with its answer and with the store after it, and a client makes any
number of them in sequence, whatever rows it brings along.

The id of a row stands at two places, in the row and as the key it is stored under. Both are written
by every operation, from a row that may have brought another id, or none. `Identified` says that
they agree wherever a row is stored; since an id is read from a row as an integer of 64 bits, it
also says that every id in use has this size. So the one thing that could break it is a next id
beyond the greatest integer. As long as nobody asks for that one, each call has one of the effects
of its operation (`Identified.effect`), and each effect leaves the rows under their ids
(`Identified.of_effect`).
-/

namespace RowAccess

namespace Table

variable {t : Table}

theorem contains_iff {id : Int} : t.contains id = true ↔ ∃ row, t.get? id = some row := by
  rw [contains, Option.isSome_iff_exists]

/-- The next id is one in a table without rows, and otherwise follows the greatest id in use. -/
theorem nextId_cases (t : Table) :
    t.entries = [] ∧ t.nextId = 1 ∨
      ∃ last, t.contains last = true ∧ t.nextId = last + 1 ∧
        ∀ id, t.contains id = true → id ≤ last := by
  cases hlast : t.entries.getLast? with
  | none => exact .inl ⟨List.getLast?_eq_none_iff.mp hlast, by rw [nextId, hlast]⟩
  | some entry =>
    obtain ⟨last, row⟩ := entry
    obtain ⟨init, hentries⟩ := List.getLast?_eq_some_iff.mp hlast
    have hascending := t.ascending
    rw [hentries, List.map_append, List.pairwise_append] at hascending
    refine .inr ⟨last, contains_iff.mpr ⟨row, get?_eq_some_iff.mpr ?_⟩, by rw [nextId, hlast],
      fun id hid ↦ ?_⟩
    · exact hentries ▸ List.mem_append_right init List.mem_cons_self
    · obtain ⟨found, hfound⟩ := contains_iff.mp hid
      rw [get?_eq_some_iff, hentries, List.mem_append, List.mem_singleton] at hfound
      rcases hfound with hinit | hsame
      · have hmem : id ∈ init.map Prod.fst := List.mem_map.mpr ⟨_, hinit, rfl⟩
        exact Int.le_of_lt (hascending.2.2 id hmem last (List.mem_singleton_self last))
      · exact Int.le_of_eq (Prod.mk.inj hsame).1

theorem lt_nextId {id : Int} (h : t.contains id = true) : id < t.nextId := by
  rcases t.nextId_cases with ⟨hempty, -⟩ | ⟨last, -, hnext, hmax⟩
  · obtain ⟨row, hrow⟩ := contains_iff.mp h
    rw [get?_eq_some_iff, hempty] at hrow
    exact absurd hrow List.not_mem_nil
  · rw [hnext]
    exact Int.lt_add_one_of_le (hmax id h)

theorem isInt64_nextId (h : ∀ id, t.contains id = true → Text.isInt64 id = true)
    (hroom : t.contains Text.int64Max = false) : Text.isInt64 t.nextId = true := by
  rcases t.nextId_cases with ⟨-, hnext⟩ | ⟨last, hlast, hnext, -⟩
  · rw [hnext]
    decide
  · have hne : last ≠ Text.int64Max := fun e ↦ by
      rw [e, hroom] at hlast
      exact Bool.false_ne_true hlast
    have hsize := h last hlast
    rw [Text.isInt64, Bool.and_eq_true, decide_eq_true_eq, decide_eq_true_eq] at hsize
    rw [hnext, Text.isInt64, Bool.and_eq_true, decide_eq_true_eq, decide_eq_true_eq]
    omega

end Table

/-- Whether a row brings no id along. -/
def Row.lacksId (row : Row) : Bool := (row.valueOf "id").isNull

namespace Store

/-- A call that may change the store. -/
inductive Call where
  | insert (key : ModelKey) (row : Row)
  | update (key : ModelKey) (id : Int) (row : Row)
  | delete (key : ModelKey) (id : Int)

/-- The answer to a call: what its operation returns, or why it is refused. -/
inductive Reply where
  | inserted (stored : Row)
  | updated (stored : Option Row)
  | deleted (found : Bool)
  | refused (fault : StoreFault)

/-- The answer to a call and the store after it. An operation that fails returns no store, so the
store before a refused call stays. -/
def call (s : Store) : Call → Reply × Store
  | .insert key row =>
    match s.insert key row with
    | .ok (stored, s') => (.inserted stored, s')
    | .error fault => (.refused fault, s)
  | .update key id row =>
    match s.update key id row with
    | .ok (stored, s') => (.updated stored, s')
    | .error fault => (.refused fault, s)
  | .delete key id =>
    match s.delete key id with
    | .ok (found, s') => (.deleted found, s')
    | .error fault => (.refused fault, s)

def afterCalls (s : Store) : List Call → Store
  | [] => s
  | c :: calls => (s.call c).2.afterCalls calls

/-- Whether the next id is free for a call: a row without an id is not inserted into a table where
the greatest id is in use. -/
def hasRoom (s : Store) : Call → Bool
  | .insert key row => !(row.lacksId && (s.table? key).any (·.contains Text.int64Max))
  | _ => true

/-- Whether the next id is free for each of several calls at its turn. -/
def haveRoom (s : Store) : List Call → Bool
  | [] => true
  | c :: calls => s.hasRoom c && (s.call c).2.haveRoom calls

def Call.key : Call → ModelKey
  | .insert key _ => key
  | .update key _ _ => key
  | .delete key _ => key

/-- What a call does to the store. A call that is refused, and one that finds no row, does nothing;
any other one changes the row under the id that it reports, where an insertion finds no row. -/
inductive Effect (s : Store) : Call → Reply → Store → Prop
  | unknownTable {c : Call} (missing : s.table? c.key = none) :
    Effect s c (.refused (.unknownTable c.key.render)) s
  | idNotInteger {key : ModelKey} {row : Row} {value : Json} (brought : row.get? "id" = some value)
    (present : value.isNull = false) (unread : value.asInt64? = none) :
    Effect s (.insert key row) (.refused (.idNotInteger value)) s
  | duplicateId {key : ModelKey} {row found : Row} {id : Int} (brought : row.id? = some id)
    (used : s.get key id = .ok (some found)) :
    Effect s (.insert key row) (.refused (.duplicateId key.render id)) s
  | inserted {key : ModelKey} {row stored : Row} {id : Int} {s' : Store}
    (brought : row.lacksId = true ∨ row.id? = some id)
    (written : stored = row.insert "id" (.int id)) (identified : stored.id? = some id)
    (changes : s.ChangesOnly s' key id none (some stored)) :
    Effect s (.insert key row) (.inserted stored) s'
  | notUpdated {key : ModelKey} {id : Int} {row : Row} (free : s.get key id = .ok none) :
    Effect s (.update key id row) (.updated none) s
  | updated {key : ModelKey} {id : Int} {row stored found : Row} {s' : Store}
    (written : stored = row.insert "id" (.int id)) (identified : stored.id? = some id)
    (changes : s.ChangesOnly s' key id (some found) (some stored)) :
    Effect s (.update key id row) (.updated (some stored)) s'
  | notDeleted {key : ModelKey} {id : Int} (free : s.get key id = .ok none) :
    Effect s (.delete key id) (.deleted false) s
  | deleted {key : ModelKey} {id : Int} {found : Row} {s' : Store}
    (changes : s.ChangesOnly s' key id (some found) none) :
    Effect s (.delete key id) (.deleted true) s'

/-- Every row is stored under the id that is read from it. -/
def Identified (s : Store) : Prop :=
  ∀ key id row, s.get key id = .ok (some row) → row.id? = some id

variable {r : Registry} {s s' : Store}

theorem Identified.keepsIds (h : s.Identified) : s.KeepsIds := by
  intro key id row hrow
  obtain ⟨value, hvalue, hid⟩ := Option.bind_eq_some_iff.mp (h key id row hrow)
  rw [hvalue, (Json.asInt64?_eq_some_iff.mp hid).2]

theorem id?_insert_id {id : Int} (h : Text.isInt64 id = true) (row : Row) :
    Row.id? (row.insert "id" (.int id)) = some id := by
  rw [Row.id?, Ordered.get?_insert, if_pos rfl, Option.bind_some]
  exact Json.asInt64?_eq_some_iff.mpr ⟨h, rfl⟩

theorem isInt64_of_id? {row : Row} {id : Int} (h : row.id? = some id) : Text.isInt64 id = true := by
  obtain ⟨value, -, hvalue⟩ := Option.bind_eq_some_iff.mp h
  exact (Json.asInt64?_eq_some_iff.mp hvalue).1

theorem newId_of_lacksId {row : Row} (h : row.lacksId = true) (t : Table) :
    newId t row = .ok t.nextId := by
  rw [Row.lacksId, Row.valueOf] at h
  rw [newId]
  cases hvalue : row.get? "id" with
  | none => rfl
  | some value =>
    rw [hvalue, Option.getD_some] at h
    cases value <;> first | rfl | exact absurd h Bool.false_ne_true

/-- A row without an id is given the next one; one that it brings along has to be an integer. -/
theorem newId_cases (t : Table) (row : Row) :
    row.lacksId = true ∧ newId t row = .ok t.nextId ∨
      (∃ id, row.id? = some id ∧ newId t row = .ok id) ∨
      ∃ value, row.get? "id" = some value ∧ value.isNull = false ∧ value.asInt64? = none ∧
        newId t row = .error (.idNotInteger value) := by
  cases hlacks : row.lacksId with
  | true => exact .inl ⟨rfl, newId_of_lacksId hlacks t⟩
  | false =>
    rw [Row.lacksId, Row.valueOf] at hlacks
    rw [Row.id?, newId]
    split
    · rename_i hmissing
      rw [hmissing] at hlacks
      exact absurd hlacks.symm Bool.false_ne_true
    · rename_i hnull
      rw [hnull] at hlacks
      exact absurd hlacks.symm Bool.false_ne_true
    · rename_i value _ hvalue
      rw [hvalue, Option.getD_some] at hlacks
      rw [hvalue, Option.bind_some]
      cases hread : value.asInt64? with
      | some id => exact .inr (.inl ⟨id, rfl, rfl⟩)
      | none => exact .inr (.inr ⟨value, rfl, hlacks, hread, rfl⟩)

/-- A row is stored under its new id unless another row has it, which only happens to an id that the
row brought along. -/
theorem effect_of_newId {key : ModelKey} {row : Row} {t : Table} {id : Int}
    (ht : s.table? key = some t) (hid : newId t row = .ok id) (hsize : Text.isInt64 id = true)
    (hbrought : row.lacksId = true ∨ row.id? = some id)
    (hused : t.contains id = true → row.id? = some id) :
    s.Effect (.insert key row) (s.call (.insert key row)).1 (s.call (.insert key row)).2 := by
  cases hcontains : t.contains id with
  | true =>
    have hinsert : s.insert key row = .error (.duplicateId key.render id) := by
      rw [insert, tableOf_eq_ok_iff.mpr ht]
      dsimp only [bind, Except.bind]
      rw [hid]
      dsimp only
      rw [hcontains]
      rfl
    obtain ⟨found, hfound⟩ := Table.contains_iff.mp hcontains
    rw [call, hinsert]
    exact .duplicateId (hused hcontains) (get_eq_ok_iff.mpr ⟨t, ht, hfound⟩)
  | false =>
    have hfree : t.get? id = none := by
      rwa [Table.contains, Option.isSome_eq_false_iff, Option.isNone_iff_eq_none] at hcontains
    have hchanges := changesOnly_put ht id (row.insert "id" (.int id))
    rw [call, insert_eq_ok_iff.mpr ⟨t, id, ht, hid, hfree, rfl⟩]
    exact .inserted hbrought rfl (id?_insert_id hsize row) (hfree ▸ hchanges)

namespace Identified

theorem isInt64 (h : s.Identified) {key : ModelKey} {t : Table} (ht : s.table? key = some t)
    {id : Int} (hid : t.contains id = true) : Text.isInt64 id = true := by
  obtain ⟨row, hrow⟩ := Table.contains_iff.mp hid
  exact isInt64_of_id? (h key id row (get_eq_ok_iff.mpr ⟨t, ht, hrow⟩))

theorem isInt64_nextId (h : s.Identified) {key : ModelKey} {row : Row} {t : Table}
    (hroom : s.hasRoom (.insert key row) = true) (hlacks : row.lacksId = true)
    (ht : s.table? key = some t) : Text.isInt64 t.nextId = true := by
  rw [hasRoom, ht, hlacks, Option.any_some, Bool.true_and, Bool.not_eq_true'] at hroom
  exact Table.isInt64_nextId (fun _ ↦ h.isInt64 ht) hroom

theorem effect_insert (h : s.Identified) {key : ModelKey} {row : Row}
    (hroom : s.hasRoom (.insert key row) = true) :
    s.Effect (.insert key row) (s.call (.insert key row)).1 (s.call (.insert key row)).2 := by
  cases ht : s.table? key with
  | none =>
    have hinsert : s.insert key row = .error (.unknownTable key.render) := by
      rw [insert, tableOf, ht]
      rfl
    rw [call, hinsert]
    exact .unknownTable ht
  | some t =>
    rcases newId_cases t row with ⟨hlacks, hid⟩ | ⟨id, hbrought, hid⟩ | ⟨value, hvalue, hpresent,
      hunread, hid⟩
    · exact effect_of_newId ht hid (h.isInt64_nextId hroom hlacks ht) (.inl hlacks) fun hused ↦
        absurd (Table.lt_nextId hused) (Int.lt_irrefl _)
    · exact effect_of_newId ht hid (isInt64_of_id? hbrought) (.inr hbrought) fun _ ↦ hbrought
    · have hinsert : s.insert key row = .error (.idNotInteger value) := by
        rw [insert, tableOf_eq_ok_iff.mpr ht]
        dsimp only [bind, Except.bind]
        rw [hid]
      rw [call, hinsert]
      exact .idNotInteger hvalue hpresent hunread

theorem effect_update (h : s.Identified) (key : ModelKey) (id : Int) (row : Row) :
    s.Effect (.update key id row) (s.call (.update key id row)).1
      (s.call (.update key id row)).2 := by
  cases ht : s.table? key with
  | none =>
    have hupdate : s.update key id row = .error (.unknownTable key.render) := by
      rw [update, tableOf, ht]
      rfl
    rw [call, hupdate]
    exact .unknownTable ht
  | some t =>
    rw [call, update_eq_ok_iff.mpr ⟨t, ht, rfl⟩]
    cases hrow : t.get? id with
    | none =>
      rw [Table.contains, hrow, Option.isSome_none, if_neg Bool.false_ne_true]
      exact .notUpdated (get_eq_ok_iff.mpr ⟨t, ht, hrow⟩)
    | some found =>
      have hused := Table.contains_iff.mpr ⟨found, hrow⟩
      have hchanges := changesOnly_put ht id (row.insert "id" (.int id))
      rw [hused, if_pos rfl]
      exact .updated rfl (id?_insert_id (h.isInt64 ht hused) row) (hrow ▸ hchanges)

end Identified

theorem effect_delete (s : Store) (key : ModelKey) (id : Int) :
    s.Effect (.delete key id) (s.call (.delete key id)).1 (s.call (.delete key id)).2 := by
  cases ht : s.table? key with
  | none =>
    have hdelete : s.delete key id = .error (.unknownTable key.render) := by
      rw [delete, tableOf, ht]
      rfl
    rw [call, hdelete]
    exact .unknownTable ht
  | some t =>
    rw [call, delete_eq_ok_iff.mpr ⟨t, ht, rfl⟩]
    cases hrow : t.get? id with
    | none =>
      rw [Table.contains, hrow, Option.isSome_none, if_neg Bool.false_ne_true]
      exact .notDeleted (get_eq_ok_iff.mpr ⟨t, ht, hrow⟩)
    | some found =>
      have hchanges := changesOnly_erase ht id
      rw [Table.contains_iff.mpr ⟨found, hrow⟩, if_pos rfl]
      exact .deleted (hrow ▸ hchanges)

namespace Identified

/-- Whatever a call does, it is one of the effects of its operation. -/
theorem effect (h : s.Identified) {c : Call} (hroom : s.hasRoom c = true) :
    s.Effect c (s.call c).1 (s.call c).2 := by
  cases c with
  | insert key row => exact h.effect_insert hroom
  | update key id row => exact h.effect_update key id row
  | delete key id => exact s.effect_delete key id

/-- Every effect leaves the rows under their ids. -/
theorem of_effect (h : s.Identified) {c : Call} {reply : Reply} (heffect : s.Effect c reply s') :
    s'.Identified := by
  cases heffect with
  | inserted _ _ hidentified hchanges =>
    exact hchanges.forall_rows h fun row hrow ↦ Option.some.inj hrow ▸ hidentified
  | updated _ hidentified hchanges =>
    exact hchanges.forall_rows h fun row hrow ↦ Option.some.inj hrow ▸ hidentified
  | deleted hchanges => exact hchanges.forall_rows h nofun
  -- The other calls leave the store as it is.
  | unknownTable _ | idNotInteger _ _ _ | duplicateId _ _ | notUpdated _ | notDeleted _ => exact h

theorem afterCalls (h : s.Identified) {calls : List Call} (hroom : s.haveRoom calls = true) :
    (s.afterCalls calls).Identified := by
  induction calls generalizing s with
  | nil => exact h
  | cons c calls ih =>
    rw [haveRoom, Bool.and_eq_true] at hroom
    exact ih (h.of_effect (h.effect hroom.1)) hroom.2

theorem get?_eq_some_iff (h : s.Identified) {key : ModelKey} {t : Table}
    (ht : s.table? key = some t) {id : Int} {row : Row} :
    t.get? id = some row ↔ row ∈ t.rows ∧ row.id? = some id := by
  constructor
  · exact fun hrow ↦ ⟨List.mem_map.mpr ⟨_, Table.get?_eq_some_iff.mp hrow, rfl⟩,
      h key id row (get_eq_ok_iff.mpr ⟨t, ht, hrow⟩)⟩
  · rintro ⟨hrow, hid⟩
    obtain ⟨⟨n, _⟩, hentry, rfl⟩ := List.mem_map.mp hrow
    have hget := Table.get?_eq_some_iff.mpr hentry
    have hread := h key n _ (get_eq_ok_iff.mpr ⟨t, ht, hget⟩)
    exact Option.some.inj (hread.symm.trans hid) ▸ hget

theorem map_id?_rows (h : s.Identified) {key : ModelKey} {t : Table} (ht : s.table? key = some t) :
    t.rows.map Row.id? = (t.entries.map Prod.fst).map some := by
  rw [Table.rows, List.map_map, List.map_map]
  refine List.map_congr_left fun (id, row) hentry ↦ ?_
  exact h key id row (get_eq_ok_iff.mpr ⟨t, ht, Table.get?_eq_some_iff.mpr hentry⟩)

theorem exists_id? (h : s.Identified) {key : ModelKey} {t : Table} (ht : s.table? key = some t)
    {row : Row} (hrow : row ∈ t.rows) : ∃ id, row.id? = some id := by
  obtain ⟨⟨id, _⟩, hentry, rfl⟩ := List.mem_map.mp hrow
  exact ⟨id, h key id _ (get_eq_ok_iff.mpr ⟨t, ht, Table.get?_eq_some_iff.mpr hentry⟩)⟩

theorem nodup_ids (h : s.Identified) {key : ModelKey} {t : Table} (ht : s.table? key = some t) :
    (t.rows.map Row.id?).Nodup := by
  rw [h.map_id?_rows ht]
  exact (t.ascending.imp fun h ↦ Int.ne_of_lt h).map some fun _ _ hne e ↦ hne (Option.some.inj e)

theorem call_insert_of_lacksId (h : s.Identified) {key : ModelKey} {row : Row} {t : Table}
    (hroom : s.hasRoom (.insert key row) = true) (hlacks : row.lacksId = true)
    (ht : s.table? key = some t) :
    ∃ stored id, (s.call (.insert key row)).1 = .inserted stored ∧ stored.id? = some id ∧
      ∀ other, t.contains other = true → other < id := by
  have hfree : t.get? t.nextId = none := by
    refine Option.eq_none_iff_forall_ne_some.mpr fun found hfound ↦ ?_
    exact Int.lt_irrefl _ (Table.lt_nextId (Table.contains_iff.mpr ⟨found, hfound⟩))
  have houtcome := insert_eq_ok_iff.mpr ⟨t, t.nextId, ht, newId_of_lacksId hlacks t, hfree, rfl⟩
  refine ⟨row.insert "id" (.int t.nextId), t.nextId, by rw [call, houtcome],
    id?_insert_id (h.isInt64_nextId hroom hlacks ht) row, fun other ↦ Table.lt_nextId⟩

end Identified

theorem identified_new (r : Registry) : (Store.new r).Identified :=
  fun key id row hrow ↦ absurd hrow (get_new r key id row)

/-- The representation of a store. After any calls on an empty store, as long as a row without an id
found the next one free, every row of every table is stored under the id that is read from it, and
the ids of a table are distinct. Every further call has one of the effects of its operation: it is
refused or finds no row and changes nothing, or it changes the row under the id it reports, where an
insertion finds no row. And a row without an id is stored under one that is greater than all ids in
its table. -/
theorem calls_keep_ids (r : Registry) (calls : List Call)
    (h : (Store.new r).haveRoom calls = true) :
    let s := (Store.new r).afterCalls calls
    (∀ key t, s.table? key = some t →
      (∀ id row, t.get? id = some row ↔ row ∈ t.rows ∧ row.id? = some id) ∧
      (∀ row ∈ t.rows, ∃ id, row.id? = some id) ∧ (t.rows.map Row.id?).Nodup) ∧
    ∀ c, s.hasRoom c = true →
      s.Effect c (s.call c).1 (s.call c).2 ∧
      ∀ key row t, c = .insert key row → row.lacksId = true → s.table? key = some t →
        ∃ stored id, (s.call c).1 = .inserted stored ∧ stored.id? = some id ∧
          ∀ other, t.contains other = true → other < id := by
  intro s
  have hidentified : s.Identified := (identified_new r).afterCalls h
  refine ⟨fun key t ht ↦ ⟨fun id row ↦ hidentified.get?_eq_some_iff ht,
    fun row ↦ hidentified.exists_id? ht, hidentified.nodup_ids ht⟩,
    fun c hroom ↦ ⟨hidentified.effect hroom, ?_⟩⟩
  rintro key row t rfl hlacks ht
  exact hidentified.call_insert_of_lacksId hroom hlacks ht

end Store

namespace Folders

/-- Calls that bring folders with an id and without one, with a null one, with one that is in use,
with one that is a text and with one that is not the addressed one. -/
def calls : List Store.Call := [
  .insert folder.key (.ofList [("parts", .array [])]),
  .insert folder.key (.ofList [("id", .int 5)]),
  .insert folder.key (.ofList [("id", .null)]),
  .insert folder.key (.ofList [("id", .int 5)]),
  .insert folder.key (.ofList [("id", .text "8")]),
  .update folder.key 5 (.ofList [("id", .int 9), ("parts", .array [.int 1])]),
  .delete folder.key 1,
  .update folder.key 1 .empty]

/-- The folders `5` and `6` are left, each under its id, and the next one comes behind them. -/
theorem calls_keep_folders :
    (Store.new store.registry).haveRoom calls = true ∧
      let s := (Store.new store.registry).afterCalls calls
      ∃ t, s.table? folder.key = some t ∧ t.rows.map Row.id? = [some 5, some 6] ∧
        (∀ id row, t.get? id = some row ↔ row ∈ t.rows ∧ row.id? = some id) ∧
        ∃ stored id, (s.call (.insert folder.key .empty)).1 = .inserted stored ∧
          stored.id? = some id ∧ ∀ other, t.contains other = true → other < id := by
  have hroom : (Store.new store.registry).haveRoom calls = true := by decide +kernel
  have hids : (((Store.new store.registry).afterCalls calls).table? folder.key).map
      (fun t ↦ t.rows.map Row.id?) = some [some 5, some 6] := by decide +kernel
  obtain ⟨hkeeps, hcalls⟩ := Store.calls_keep_ids store.registry calls hroom
  obtain ⟨t, ht, hrows⟩ := Option.map_eq_some_iff.mp hids
  obtain ⟨-, hinsert⟩ := hcalls (.insert folder.key .empty) (by decide +kernel)
  exact ⟨hroom, t, ht, hrows, (hkeeps _ t ht).1, hinsert _ _ t rfl rfl ht⟩

end Folders

end RowAccess

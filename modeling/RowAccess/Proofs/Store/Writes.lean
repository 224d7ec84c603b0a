import RowAccess.Proofs.Outcome
import RowAccess.Store.Basic

/-!
# What a write changes

Each operation of the store that writes touches one table, and in it one id. `ChangesOnly` states
this frame once, with the row that the id had before and the one it has afterwards; the operations
differ in these two rows only.
-/

namespace RowAccess

namespace Store

/-- Two stores differ at most in the row of one id in one table. -/
structure ChangesOnly (s s' : Store) (key : ModelKey) (id : Int) (before after : Option Row) :
    Prop where
  registry : s'.registry = s.registry
  tables : ∀ other, other ≠ key → s'.table? other = s.table? other
  rows : ∃ t t', s.table? key = some t ∧ s'.table? key = some t' ∧ t.get? id = before ∧
    t'.get? id = after ∧ ∀ other, other ≠ id → t'.get? other = t.get? other

variable {s s' : Store} {key : ModelKey} {id : Int} {row : Row}

theorem tableOf_eq_ok_iff {t : Table} : s.tableOf key = .ok t ↔ s.table? key = some t := by
  rw [tableOf]
  cases s.table? key <;> simp

theorem changesOnly_setTable {t t' : Table} (ht : s.table? key = some t)
    (hframe : ∀ other, other ≠ id → t'.get? other = t.get? other) :
    s.ChangesOnly (s.setTable key t') key id (t.get? id) (t'.get? id) where
  registry := rfl
  tables other hother := by rw [table?_setTable, if_neg hother]
  rows := ⟨t, t', ht, by rw [table?_setTable, if_pos rfl, ht, Option.map_some], rfl, rfl, hframe⟩

theorem changesOnly_put {t : Table} (ht : s.table? key = some t) (id : Int) (row : Row) :
    s.ChangesOnly (s.setTable key (t.put id row)) key id (t.get? id) (some row) := by
  have hframe : ∀ other, other ≠ id → (t.put id row).get? other = t.get? other :=
    fun other hother ↦ by rw [Table.get?_put, if_neg hother]
  have hchanges := changesOnly_setTable ht hframe
  rwa [Table.get?_put, if_pos rfl] at hchanges

theorem changesOnly_erase {t : Table} (ht : s.table? key = some t) (id : Int) :
    s.ChangesOnly (s.setTable key (t.erase id)) key id (t.get? id) none := by
  have hframe : ∀ other, other ≠ id → (t.erase id).get? other = t.get? other :=
    fun other hother ↦ by rw [Table.get?_erase, if_neg hother]
  have hchanges := changesOnly_setTable ht hframe
  rwa [Table.get?_erase, if_pos rfl] at hchanges

theorem get_eq_ok_iff {found : Option Row} :
    s.get key id = .ok found ↔ ∃ t, s.table? key = some t ∧ t.get? id = found := by
  rw [get, Outcome.bind_eq_ok_iff]
  simp only [tableOf_eq_ok_iff, Outcome.pure_eq_ok_iff]

theorem get_eq_ok_iff_of_table {t : Table} (ht : s.table? key = some t) {found : Option Row} :
    s.get key id = .ok found ↔ t.get? id = found := by
  rw [get_eq_ok_iff, ht]
  simp only [Option.some.injEq, exists_eq_left']

theorem get_new (r : Registry) (key : ModelKey) (id : Int) (row : Row) :
    (Store.new r).get key id ≠ .ok (some row) := by
  intro h
  obtain ⟨t, ht, hrow⟩ := get_eq_ok_iff.mp h
  have hempty : ∀ models : List Model,
      (models.map fun m ↦ (m.key, Table.empty)).lookup key = some t → t = .empty := by
    intro models
    induction models with
    | nil => exact nofun
    | cons m rest ih =>
      intro h
      rw [List.map_cons, lookup_cons_eq_ite] at h
      split at h
      · exact (Option.some.inj h).symm
      · exact ih h
  rw [hempty r.models ht] at hrow
  exact nomatch hrow

theorem insert_eq_ok_iff {result : Row × Store} :
    s.insert key row = .ok result ↔ ∃ t id, s.table? key = some t ∧ newId t row = .ok id ∧
      t.get? id = none ∧ result =
        (row.insert "id" (.int id), s.setTable key (t.put id (row.insert "id" (.int id)))) := by
  rw [insert, Outcome.bind_eq_ok_iff]
  refine exists_congr fun t ↦ ?_
  rw [tableOf_eq_ok_iff, Outcome.bind_eq_ok_iff, ← exists_and_left]
  refine exists_congr fun id ↦ and_congr_right fun _ ↦ and_congr_right fun _ ↦ ?_
  rw [Table.contains]
  cases t.get? id with
  | none => exact ⟨fun h ↦ ⟨rfl, (Except.ok.inj h).symm⟩, fun h ↦ h.2 ▸ rfl⟩
  | some found => exact ⟨nofun, nofun⟩

theorem update_eq_ok_iff {result : Option Row × Store} :
    s.update key id row = .ok result ↔ ∃ t, s.table? key = some t ∧
      result = if t.contains id then
        (some (row.insert "id" (.int id)), s.setTable key (t.put id (row.insert "id" (.int id))))
      else (none, s) := by
  rw [update, Outcome.bind_eq_ok_iff]
  refine exists_congr fun t ↦ ?_
  rw [tableOf_eq_ok_iff]
  refine and_congr_right fun _ ↦ ?_
  cases t.contains id <;> exact ⟨fun h ↦ (Except.ok.inj h).symm, fun h ↦ h ▸ rfl⟩

theorem delete_eq_ok_iff {result : Bool × Store} :
    s.delete key id = .ok result ↔ ∃ t, s.table? key = some t ∧
      result = if t.contains id then (true, s.setTable key (t.erase id)) else (false, s) := by
  rw [delete, Outcome.bind_eq_ok_iff]
  refine exists_congr fun t ↦ ?_
  rw [tableOf_eq_ok_iff]
  refine and_congr_right fun _ ↦ ?_
  cases t.contains id <;> exact ⟨fun h ↦ (Except.ok.inj h).symm, fun h ↦ h ▸ rfl⟩

theorem changesOnly_of_insert {stored : Row} (h : s.insert key row = .ok (stored, s')) :
    ∃ id, stored = row.insert "id" (.int id) ∧ s.ChangesOnly s' key id none (some stored) := by
  obtain ⟨t, id, ht, -, hfree, hresult⟩ := insert_eq_ok_iff.mp h
  obtain ⟨rfl, rfl⟩ := Prod.mk.inj hresult
  exact ⟨id, rfl, hfree ▸ changesOnly_put ht id _⟩

/-- An update that finds a row replaces it, under the same id. -/
theorem changesOnly_of_update {stored : Row} (h : s.update key id row = .ok (some stored, s')) :
    stored = row.insert "id" (.int id) ∧
      ∃ found, s.ChangesOnly s' key id (some found) (some stored) := by
  obtain ⟨t, ht, hresult⟩ := update_eq_ok_iff.mp h
  cases hused : t.contains id with
  | false =>
    rw [hused] at hresult
    exact nomatch (Prod.mk.inj hresult).1
  | true =>
    rw [hused] at hresult
    obtain ⟨hstored, rfl⟩ := Prod.mk.inj hresult
    obtain rfl := Option.some.inj hstored
    obtain ⟨found, hfound⟩ := Option.isSome_iff_exists.mp hused
    exact ⟨rfl, found, hfound ▸ changesOnly_put ht id _⟩

theorem changesOnly_of_delete (h : s.delete key id = .ok (true, s')) :
    ∃ found, s.ChangesOnly s' key id (some found) none := by
  obtain ⟨t, ht, hresult⟩ := delete_eq_ok_iff.mp h
  cases hused : t.contains id with
  | false =>
    rw [hused] at hresult
    exact nomatch (Prod.mk.inj hresult).1
  | true =>
    rw [hused] at hresult
    obtain ⟨-, rfl⟩ := Prod.mk.inj hresult
    obtain ⟨found, hfound⟩ := Option.isSome_iff_exists.mp hused
    exact ⟨found, hfound ▸ changesOnly_erase ht id⟩

/-! ## Rows before and after -/

variable {before after : Option Row}

theorem ChangesOnly.get_before (h : s.ChangesOnly s' key id before after) :
    s.get key id = .ok before := by
  obtain ⟨t, _, ht, -, hbefore, -⟩ := h.rows
  exact get_eq_ok_iff.mpr ⟨t, ht, hbefore⟩

theorem ChangesOnly.get_after (h : s.ChangesOnly s' key id before after) :
    s'.get key id = .ok after := by
  obtain ⟨_, t', -, ht', -, hafter, -⟩ := h.rows
  exact get_eq_ok_iff.mpr ⟨t', ht', hafter⟩

/-- A row that a write does not touch stays. -/
theorem ChangesOnly.get_other (h : s.ChangesOnly s' key id before after) {other : ModelKey}
    {n : Int} (hother : ¬(other = key ∧ n = id)) : s'.get other n = s.get other n := by
  by_cases hkey : other = key
  · obtain ⟨t, t', ht, ht', -, -, hframe⟩ := h.rows
    have hn : n ≠ id := fun e ↦ hother ⟨hkey, e⟩
    rw [hkey, get, get, tableOf_eq_ok_iff.mpr ht, tableOf_eq_ok_iff.mpr ht']
    exact congrArg Except.ok (hframe n hn)
  · rw [get, get, tableOf, tableOf, h.tables other hkey]

theorem ChangesOnly.exists_get_iff {found row : Row}
    (h : s.ChangesOnly s' key id (some found) (some row)) {other : ModelKey} {n : Int} :
    (∃ related, s'.get other n = .ok (some related)) ↔
      ∃ related, s.get other n = .ok (some related) := by
  by_cases hsame : other = key ∧ n = id
  · obtain ⟨rfl, rfl⟩ := hsame
    exact ⟨fun _ ↦ ⟨found, h.get_before⟩, fun _ ↦ ⟨row, h.get_after⟩⟩
  · rw [h.get_other hsame]

/-- What holds of every row with its id is kept by a write of a row of which it holds too. -/
theorem ChangesOnly.forall_rows {P : Int → Row → Prop}
    (hchanges : s.ChangesOnly s' key id before after)
    (h : ∀ key id row, s.get key id = .ok (some row) → P id row)
    (hafter : ∀ row, after = some row → P id row) :
    ∀ key id row, s'.get key id = .ok (some row) → P id row := by
  intro other n row hrow
  by_cases hsame : other = key ∧ n = id
  · obtain ⟨rfl, rfl⟩ := hsame
    exact hafter row (Except.ok.inj (hchanges.get_after.symm.trans hrow))
  · exact h other n row ((hchanges.get_other hsame).symm.trans hrow)

end Store

end RowAccess

import RowAccess.Proofs.Store.Writes

/-!
# Stores that operations lead to

A store begins empty, and rows come and go by insertions, updates and deletions only. `Reachable`
collects the stores that come about this way. What holds of the empty store and is kept by every
change of a single row holds of all of them (`Reachable.invariant`); so they have the registry that
the store began with, and hold every row with its own id.
-/

namespace RowAccess.Store

/-- The stores that the operations of the store lead to from an empty one. -/
inductive Reachable (r : Registry) : Store → Prop
  | new : Reachable r (.new r)
  | insert {s s' : Store} {key : ModelKey} {row stored : Row} (h : Reachable r s)
      (hinsert : s.insert key row = .ok (stored, s')) : Reachable r s'
  | update {s s' : Store} {key : ModelKey} {id : Int} {row : Row} {stored : Option Row}
      (h : Reachable r s) (hupdate : s.update key id row = .ok (stored, s')) : Reachable r s'
  | delete {s s' : Store} {key : ModelKey} {id : Int} {found : Bool} (h : Reachable r s)
      (hdelete : s.delete key id = .ok (found, s')) : Reachable r s'

/-- Every row is stored with its id. -/
def KeepsIds (s : Store) : Prop :=
  ∀ key id row, s.get key id = .ok (some row) → row.get? "id" = some (.int id)

variable {r : Registry} {s s' : Store} {key : ModelKey} {id : Int} {row : Row}

theorem eq_of_update_none (h : s.update key id row = .ok (none, s')) : s' = s := by
  obtain ⟨t, -, hresult⟩ := update_eq_ok_iff.mp h
  split at hresult
  · exact nomatch (Prod.mk.inj hresult).1
  · exact (Prod.mk.inj hresult).2

theorem eq_of_delete_false (h : s.delete key id = .ok (false, s')) : s' = s := by
  obtain ⟨t, -, hresult⟩ := delete_eq_ok_iff.mp h
  split at hresult
  · exact nomatch (Prod.mk.inj hresult).1
  · exact (Prod.mk.inj hresult).2

/-- What holds of the empty store, and is kept where one row is removed or written with its id,
holds of every store that operations lead to. -/
theorem Reachable.invariant {P : Store → Prop} (h : Reachable r s) (hnew : P (.new r))
    (hstep : ∀ {s s' : Store} {key : ModelKey} {id : Int} {before after : Option Row}, P s →
      s.ChangesOnly s' key id before after →
      (∀ row, after = some row → row.get? "id" = some (.int id)) → P s') : P s := by
  have hwritten : ∀ {row stored : Row} {id : Int}, stored = row.insert "id" (.int id) →
      ∀ found, some stored = some found → found.get? "id" = some (.int id) := by
    rintro row _ id rfl found hfound
    rw [← Option.some.inj hfound, Ordered.get?_insert, if_pos rfl]
  induction h with
  | new => exact hnew
  | insert _ hinsert ih =>
    obtain ⟨id, hstored, hchanges⟩ := changesOnly_of_insert hinsert
    exact hstep ih hchanges (hwritten hstored)
  | @update _ _ _ _ _ stored _ hupdate ih =>
    cases stored with
    | none => exact eq_of_update_none hupdate ▸ ih
    | some stored =>
      obtain ⟨hstored, found, hchanges⟩ := changesOnly_of_update hupdate
      exact hstep ih hchanges (hwritten hstored)
  | @delete _ _ _ _ found _ hdelete ih =>
    cases found with
    | false => exact eq_of_delete_false hdelete ▸ ih
    | true =>
      obtain ⟨_, hchanges⟩ := changesOnly_of_delete hdelete
      exact hstep ih hchanges nofun

theorem Reachable.registry (h : Reachable r s) : s.registry = r :=
  h.invariant (P := fun s ↦ s.registry = r) rfl fun hs hchanges _ ↦ hchanges.registry.trans hs

theorem KeepsIds.of_changesOnly {before after : Option Row} (h : s.KeepsIds)
    (hchanges : s.ChangesOnly s' key id before after)
    (hafter : ∀ row, after = some row → row.get? "id" = some (.int id)) : s'.KeepsIds :=
  hchanges.forall_rows h hafter

theorem Reachable.keepsIds (h : Reachable r s) : s.KeepsIds :=
  h.invariant (fun key id row hrow ↦ absurd hrow (get_new r key id row)) KeepsIds.of_changesOnly

end RowAccess.Store

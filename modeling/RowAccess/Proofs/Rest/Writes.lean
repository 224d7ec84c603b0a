import RowAccess.Proofs.Rest.Requests
import RowAccess.Proofs.Store.Writes

/-!
# What a successful write has done

The operations that write are taken apart here: what each of them has read from the store, what it
has worked out from that, and the one operation of the store that it ended with. Everything that is
said later about writes is read off these equivalences.
-/

namespace RowAccess

/-- A requester may act on a model as a superuser or by a permission. -/
theorem Identity.hasPermission_iff {identity : Identity} {app action model : String} :
    identity.hasPermission app action model = true ↔ ∃ u, identity = .user u ∧
      (u.isSuperuserOf app = true ∨ permissionName app action model ∈ u.permissions) := by
  constructor
  · intro h
    cases identity with
    | anonymous => exact absurd h Bool.false_ne_true
    | user u =>
      rw [hasPermission, user?, Option.any_some, User.hasPermission, Bool.or_eq_true,
        List.contains_iff_mem] at h
      exact ⟨u, rfl, h⟩
  · rintro ⟨u, rfl, h⟩
    rw [hasPermission, user?, Option.any_some, User.hasPermission, Bool.or_eq_true,
      List.contains_iff_mem]
    exact h

namespace Store

variable {s : Store} {m : Model} {id : String} {n : Int} {row : Row}

theorem rowOf_eq_ok_iff :
    s.rowOf m id = .ok (n, row) ↔
      Text.readInt64? id = some n ∧ s.get m.key n = .ok (some row) := by
  rw [rowOf]
  cases Text.readInt64? id with
  | none => exact ⟨nofun, fun h ↦ absurd h.1 (Option.some_ne_none n).symm⟩
  | some k =>
    dsimp only
    rw [Outcome.bind_eq_ok_iff]
    simp only [Outcome.mapError_eq_ok_iff]
    constructor
    · rintro ⟨found, hfound, h⟩
      cases found with
      | none => exact absurd h Outcome.throw_ne_ok
      | some r =>
        obtain ⟨rfl, rfl⟩ := Prod.mk.inj (Except.ok.inj h)
        exact ⟨rfl, hfound⟩
    · rintro ⟨hk, hget⟩
      obtain rfl := Option.some.inj hk
      exact ⟨some row, hget, rfl⟩

theorem commit_eq_ok_iff {result : Row × Store} :
    s.commit m id n row = .ok result ↔ s.update m.key n row = .ok (some result.1, result.2) := by
  rw [commit, Outcome.bind_eq_ok_iff]
  simp only [Outcome.mapError_eq_ok_iff]
  constructor
  · rintro ⟨⟨found, s'⟩, hupdate, h⟩
    cases found with
    | none => exact absurd h Outcome.throw_ne_ok
    | some stored => exact Except.ok.inj h ▸ hupdate
  · exact fun h ↦ ⟨_, h, rfl⟩

variable {identity : Identity} {now : Instant} {body : Json} {response : Response} {s' : Store}

theorem create_eq_ok_iff :
    s.create m identity now body = .ok (response, s') ↔ ∃ row stored,
      m.newRow identity now body = .ok row ∧ s.insert m.key row = .ok (stored, s') ∧
        response = { status := 201, etag := some (EntityTag.ofVersion stored.version),
                     content := .json stored.toJson } := by
  rw [create, Outcome.bind_eq_ok_iff]
  refine exists_congr fun row ↦ ?_
  rw [Outcome.bind_eq_ok_iff, ← exists_and_left]
  simp only [Outcome.mapError_eq_ok_iff, Outcome.pure_eq_ok_iff, Prod.mk.injEq]
  constructor
  · rintro ⟨⟨stored, t⟩, hrow, hinsert, rfl, rfl⟩
    exact ⟨stored, hrow, hinsert, rfl⟩
  · rintro ⟨stored, hrow, hinsert, rfl⟩
    exact ⟨(stored, s'), hrow, hinsert, rfl, rfl⟩

variable {requester : Except Fault Identity} {mode : UpdateMode} {headers : Headers}

theorem change_eq_ok_iff :
    s.change m mode requester headers now id body = .ok (response, s') ↔ ∃ n found row stored,
      s.rowOf m id = .ok (n, found) ∧ m.updatedRow mode requester headers now found body = .ok row ∧
        s.commit m id n row = .ok (stored, s') ∧
        response = { status := 200, etag := some (EntityTag.ofVersion row.version),
                     content := .json stored.toJson } := by
  rw [change, Outcome.bind_eq_ok_iff]
  simp only [Outcome.bind_eq_ok_iff, Outcome.pure_eq_ok_iff, Prod.mk.injEq]
  constructor
  · rintro ⟨⟨n, found⟩, hfound, row, hrow, ⟨stored, t⟩, hcommit, rfl, rfl⟩
    exact ⟨n, found, row, stored, hfound, hrow, hcommit, rfl⟩
  · rintro ⟨n, found, row, stored, hfound, hrow, hcommit, rfl⟩
    exact ⟨(n, found), hfound, row, hrow, (stored, s'), hcommit, rfl, rfl⟩

theorem remove_eq_ok_iff :
    s.remove m requester id = .ok (response, s') ↔ ∃ n found identity,
      s.rowOf m id = .ok (n, found) ∧ requester = .ok identity ∧
        m.requirePermission identity "delete" = .ok () ∧ s.delete m.key n = .ok (true, s') ∧
        response = .bare 204 := by
  rw [remove, Outcome.bind_eq_ok_iff]
  simp only [Outcome.bind_eq_ok_iff, Outcome.mapError_eq_ok_iff]
  constructor
  · rintro ⟨⟨n, found⟩, hfound, identity, hidentity, _, hpermission, ⟨gone, t⟩, hdelete, h⟩
    cases gone with
    | false => exact absurd h Outcome.throw_ne_ok
    | true =>
      obtain ⟨rfl, rfl⟩ := Prod.mk.inj (Except.ok.inj h)
      exact ⟨n, found, identity, hfound, hidentity, hpermission, hdelete, rfl⟩
  · rintro ⟨n, found, identity, hfound, hidentity, hpermission, hdelete, rfl⟩
    exact ⟨(n, found), hfound, identity, hidentity, (), hpermission, (true, s'), hdelete, rfl⟩

theorem unlink_eq_ok_iff {field itemModel item : String} :
    s.unlink m requester now id field itemModel item = .ok (response, s') ↔
      ∃ n found row stored, s.rowOf m id = .ok (n, found) ∧
        m.unlinkedRow requester now found field itemModel item = .ok row ∧
        s.commit m id n row = .ok (stored, s') ∧ response = .bare 204 := by
  rw [unlink, Outcome.bind_eq_ok_iff]
  simp only [Outcome.bind_eq_ok_iff, Outcome.pure_eq_ok_iff, Prod.mk.injEq]
  constructor
  · rintro ⟨⟨n, found⟩, hfound, row, hrow, ⟨stored, t⟩, hcommit, rfl, rfl⟩
    exact ⟨n, found, row, stored, hfound, hrow, hcommit, rfl⟩
  · rintro ⟨n, found, row, stored, hfound, hrow, hcommit, rfl⟩
    exact ⟨(n, found), hfound, row, hrow, (stored, s'), hcommit, rfl, rfl⟩

theorem exists_commit {found : Row} (hfound : s.get m.key n = .ok (some found)) (id : String)
    (row : Row) : ∃ s', s.commit m id n row = .ok (row.insert "id" (.int n), s') := by
  obtain ⟨t, ht, hrow⟩ := get_eq_ok_iff.mp hfound
  have hused : t.contains n = true := Option.isSome_iff_exists.mpr ⟨found, hrow⟩
  exact ⟨_, commit_eq_ok_iff.mpr (update_eq_ok_iff.mpr ⟨t, ht, (if_pos hused).symm⟩)⟩

theorem changesOnly_of_commit {stored : Row} (h : s.commit m id n row = .ok (stored, s')) :
    stored = row.insert "id" (.int n) ∧
      ∃ found, s.ChangesOnly s' m.key n (some found) (some stored) :=
  changesOnly_of_update (commit_eq_ok_iff.mp h)

theorem changesOnly_of_rowOf_commit {found stored : Row} (hfound : s.rowOf m id = .ok (n, found))
    (hcommit : s.commit m id n row = .ok (stored, s')) :
    s.ChangesOnly s' m.key n (some found) (some (row.insert "id" (.int n))) := by
  obtain ⟨rfl, before, hchanges⟩ := changesOnly_of_commit hcommit
  have hbefore := hchanges.get_before
  rw [(rowOf_eq_ok_iff.mp hfound).2] at hbefore
  rwa [Except.ok.inj hbefore]

end Store

/-! ## Permissions of writes -/

namespace Model

variable {m : Model} {requester : Except Fault Identity} {identity : Identity} {now : Instant}
  {row stored : Row} {body : Json}

theorem hasPermission_of_newRow (h : m.newRow identity now body = .ok row) :
    identity.hasPermission m.key.app "add" m.key.model = true :=
  requirePermission_eq_ok_iff.mp (Outcome.check_bind_eq_ok_iff.mp h).1

/-- The checks that an update passes, and the row that it stores. -/
theorem updatedRow_eq_ok_iff {mode : UpdateMode} {headers : Headers} :
    m.updatedRow mode requester headers now stored body = .ok row ↔ ∃ identity changes,
      requester = .ok identity ∧ identity.hasPermission m.key.app "change" m.key.model = true ∧
        EntityTag.check headers stored.version = .ok () ∧ m.acceptBody body = .ok changes ∧
          m.changedRow mode identity now stored changes = .ok row := by
  rw [updatedRow, Outcome.bind_eq_ok_iff]
  refine exists_congr fun identity ↦ ?_
  rw [Outcome.check_bind_eq_ok_iff, Outcome.check_bind_eq_ok_iff, requirePermission_eq_ok_iff,
    Outcome.bind_eq_ok_iff]
  simp only [Outcome.mapError_eq_ok_iff, exists_and_left]

theorem hasPermission_of_updatedRow {mode : UpdateMode} {headers : Headers}
    (h : m.updatedRow mode requester headers now stored body = .ok row) :
    ∃ identity, requester = .ok identity ∧
      identity.hasPermission m.key.app "change" m.key.model = true := by
  obtain ⟨identity, _, hidentity, hpermission, -⟩ := updatedRow_eq_ok_iff.mp h
  exact ⟨identity, hidentity, hpermission⟩

theorem hasPermission_of_unlinkedRow {field itemModel item : String}
    (h : m.unlinkedRow requester now stored field itemModel item = .ok row) :
    ∃ identity, requester = .ok identity ∧
      identity.hasPermission m.key.app "change" m.key.model = true := by
  obtain ⟨identity, hidentity, h⟩ := Outcome.bind_eq_ok_iff.mp h
  exact ⟨identity, hidentity, requirePermission_eq_ok_iff.mp (Outcome.check_bind_eq_ok_iff.mp h).1⟩

end Model

end RowAccess

import RowAccess.Proofs.Rest.History

/-!
# The lineage of a row

A service that begins with an empty store has written every row that it holds: some request created
the row, and the requests since then have updated it or left it alone. `Lineage` is this account,
one case for each of the three, and every stored row has one. So what holds of all stored rows is
proved by induction on their lineage, with the steps of a row as its only cases.
-/

namespace RowAccess

namespace Service

variable {service : Service} {r : Registry} {m : Model} {key : ModelKey} {id : Int} {row : Row}
  {s : Store} {requests earlier later : List (Instant × Request)} {now : Instant}
  {request : Request}

/-! ## Runs -/

theorem after_concat (service : Service) (s : Store) (requests : List (Instant × Request))
    (now : Instant) (request : Request) :
    service.after s (requests ++ [(now, request)])
      = (service.respond now (service.after s requests) request).2 := by
  rw [after_append]
  rfl

theorem registry_after (service : Service) (s : Store) (requests : List (Instant × Request)) :
    (service.after s requests).registry = s.registry := by
  induction requests generalizing s with
  | nil => rfl
  | cons first rest ih => exact (ih _).trans (service.registry_respond first.1 s first.2)

/-- How many of several requests update the row of an id. -/
def updateCount (service : Service) (key : ModelKey) (id : Int) :
    Store → List (Instant × Request) → Nat
  | _, [] => 0
  | s, (now, request) :: rest =>
    (service.updates key id now s request).toNat
      + service.updateCount key id (service.respond now s request).2 rest

theorem updateCount_concat (service : Service) (key : ModelKey) (id : Int) (s : Store)
    (requests : List (Instant × Request)) (now : Instant) (request : Request) :
    service.updateCount key id s (requests ++ [(now, request)])
      = service.updateCount key id s requests
        + (service.updates key id now (service.after s requests) request).toNat := by
  induction requests generalizing s with
  | nil => rw [List.nil_append, updateCount, updateCount, Nat.add_comm]; rfl
  | cons first rest ih =>
    rw [List.cons_append, updateCount, updateCount, ih, Nat.add_assoc]
    rfl

/-! ## Lineages -/

/-- How a row came to be stored under an id of a model, by the requests that were answered since the
store was empty. -/
inductive Lineage (service : Service) (r : Registry) (m : Model) (id : Int) :
    List (Instant × Request) → Row → Prop
  | created {earlier : List (Instant × Request)} {now : Instant} {request : Request} {row : Row}
      (writes : service.Writes now (service.after (.new r) earlier) request m id none (some row)) :
      Lineage service r m id (earlier ++ [(now, request)]) row
  | updated {earlier : List (Instant × Request)} {now : Instant} {request : Request}
      {found row : Row} (lineage : Lineage service r m id earlier found)
      (writes : service.Writes now (service.after (.new r) earlier) request m id (some found)
        (some row)) :
      Lineage service r m id (earlier ++ [(now, request)]) row
  | kept {earlier : List (Instant × Request)} {now : Instant} {request : Request} {row : Row}
      (lineage : Lineage service r m id earlier row)
      (stays : (service.after (.new r) (earlier ++ [(now, request)])).get m.key id
        = .ok (some row))
      (quiet : service.updates m.key id now (service.after (.new r) earlier) request = false) :
      Lineage service r m id (earlier ++ [(now, request)]) row

theorem Lineage.get (h : service.Lineage r m id requests row) :
    (service.after (.new r) requests).get m.key id = .ok (some row) := by
  cases h with
  | created hwrites => rw [after_concat, hwrites.get_after]
  | updated _ hwrites => rw [after_concat, hwrites.get_after]
  | kept _ hstays _ => exact hstays

theorem lineage_of_get_concat (hm : r.get? m.key = some m)
    (hearlier : ∀ row, (service.after (.new r) earlier).get m.key id = .ok (some row) →
      service.Lineage r m id earlier row)
    (h : (service.after (.new r) (earlier ++ [(now, request)])).get m.key id = .ok (some row)) :
    service.Lineage r m id (earlier ++ [(now, request)]) row := by
  have hlast := h
  rw [after_concat] at hlast
  rcases service.row_of_respond now (service.after (.new r) earlier) request m.key id with
    ⟨hsame, hquiet⟩ | ⟨m', before, after, hm', hwrites⟩
  · exact .kept (hearlier row (hsame.symm.trans hlast)) h hquiet
  · rw [registry_after, Store.new] at hm'
    obtain rfl := Option.some.inj (hm.symm.trans hm')
    obtain rfl : after = some row := Except.ok.inj (hwrites.get_after.symm.trans hlast)
    cases before with
    | none => exact .created hwrites
    | some found => exact .updated (hearlier found hwrites.get_before) hwrites

theorem lineage_of_get (hm : r.get? m.key = some m)
    (h : (service.after (.new r) requests).get m.key id = .ok (some row)) :
    service.Lineage r m id requests row := by
  have hrun : ∀ (later earlier : List (Instant × Request)),
      (∀ row, (service.after (.new r) earlier).get m.key id = .ok (some row) →
        service.Lineage r m id earlier row) →
      ∀ row, (service.after (.new r) (earlier ++ later)).get m.key id = .ok (some row) →
        service.Lineage r m id (earlier ++ later) row := by
    intro later
    induction later with
    | nil => simp
    | cons first rest ih =>
      intro earlier hearlier
      rw [List.append_cons]
      exact ih (earlier ++ [first]) fun row ↦ lineage_of_get_concat hm hearlier
  exact hrun requests [] (fun row hrow ↦ absurd hrow (Store.get_new r m.key id row)) row h

/-! ## What all rows of a lineage have -/

/-- What new rows have, and every step from a row to a row keeps, all stored rows have. -/
theorem Lineage.invariant {P : Row → Prop} (h : service.Lineage r m id requests row)
    (hstep : ∀ {now request operation path before row},
      service.RowStep now request m id operation path before (some row) →
        (∀ found, before = some found → P found) → P row) : P row := by
  induction h with
  | created hwrites =>
    obtain ⟨_, _, -, hmade⟩ := hwrites.step
    exact hstep hmade nofun
  | updated _ hwrites ih =>
    obtain ⟨_, _, -, hmade⟩ := hwrites.step
    exact hstep hmade fun found hfound ↦ Option.some.inj hfound ▸ ih
  | kept _ _ _ ih => exact ih

/-! ## Since a request -/

/-- After a request, and after each of those that follow it, there is a row under an id that has a
property. -/
def StandsSince (service : Service) (r : Registry) (key : ModelKey) (id : Int) (P : Row → Prop)
    (earlier : List (Instant × Request)) (first : Instant × Request)
    (later : List (Instant × Request)) : Prop :=
  ∀ start, start <+: later → ∃ row,
    (service.after (.new r) (earlier ++ first :: start)).get key id = .ok (some row) ∧ P row

variable {P : Row → Prop} {first last : Instant × Request}

theorem standsSince_nil
    (h : (service.after (.new r) (earlier ++ [first])).get key id = .ok (some row)) (hrow : P row) :
    service.StandsSince r key id P earlier first [] := by
  intro start hstart
  rw [List.prefix_nil.mp hstart]
  exact ⟨row, h, hrow⟩

theorem StandsSince.concat (hsince : service.StandsSince r key id P earlier first later)
    (h : (service.after (.new r) (earlier ++ first :: later ++ [last])).get key id
      = .ok (some row)) (hrow : P row) :
    service.StandsSince r key id P earlier first (later ++ [last]) := by
  intro start hstart
  rcases List.prefix_concat_iff.mp hstart with rfl | hstart
  · exact ⟨row, by rwa [List.append_assoc, List.cons_append] at h, hrow⟩
  · exact hsince start hstart

end Service

end RowAccess

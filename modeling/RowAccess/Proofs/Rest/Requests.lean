import RowAccess.Proofs.Outcome
import RowAccess.Rest.Service

/-!
# What a successful request has passed

A request is answered with a success only if all of its checks succeeded. These lemmas read off the
success of an operation what each check has established about the model, the requester and the row.
Failures are told from successes by the status: every fault has one from `400` on, and so has every
answer that is given before a request reaches an operation.
-/

namespace RowAccess

/-- A success is told by the status. -/
def Response.isSuccess (response : Response) : Bool :=
  decide (200 ≤ response.status) && decide (response.status < 300)

theorem Fault.status_ge (f : Fault) : 400 ≤ f.status := by
  cases f with
  | access cause => cases cause <;> simp [status]
  | entity cause => cases cause <;> simp [status]
  | schema cause => simp [status]
  | body cause => simp [status]
  | store cause => simp [status]
  | request cause => cases cause <;> simp [status]
  | internal problem => simp [status]

theorem Registry.modelOf_eq_ok_iff {r : Registry} {app model : String} {m : Model} :
    r.modelOf app model = .ok m ↔ r.get? ⟨app, model⟩ = some m := by
  rw [modelOf]
  cases r.get? ⟨app, model⟩ <;> simp

namespace Model

variable {m : Model} {identity : Identity} {action : String}

theorem requirePermission_eq_ok_iff :
    m.requirePermission identity action = .ok () ↔
      identity.hasPermission m.key.app action m.key.model = true := by
  rw [requirePermission]
  cases identity with
  | anonymous => simp [Identity.isAuthenticated, Identity.hasPermission, Identity.user?]
  | user u => exact Outcome.ite_ok_iff

theorem requireReading_eq_ok_iff :
    m.requireReading identity = .ok () ↔
      (m.isPrivate = true → identity.hasPermission m.key.app "view" m.key.model = true) := by
  rw [requireReading]
  cases m.isPrivate <;> simp [requirePermission_eq_ok_iff]

end Model

namespace Service

def responseOf : Except Response (Response × Store) → Response
  | .ok outcome => outcome.1
  | .error response => response

theorem reading_of_status {store : Store} {outcome : Except Fault Response} {status : Nat}
    (hstatus : status < 400) (h : (responseOf (reading store outcome)).status = status) :
    ∃ response, outcome = .ok response ∧ responseOf (reading store outcome) = response := by
  cases outcome with
  | ok response => exact ⟨response, rfl, rfl⟩
  | error f =>
    have hfault : f.status = status := h
    have := f.status_ge
    omega

/-! ## Failures -/

section Failures

variable {service : Service} {now : Instant} {s s' : Store} {request : Request}
  {response : Response} {operation : Operation} {segments : List String}

theorem status_ge_of_mapError {α : Type} {outcome : Except Fault α}
    (h : outcome.mapError .ofFault = .error response) : 400 ≤ response.status := by
  cases outcome with
  | ok _ => exact nomatch h
  | error f => exact Except.error.inj h ▸ f.status_ge

theorem status_ge_of_readBody (h : readBody request = .error response) :
    400 ≤ response.status := by
  rw [readBody] at h
  split at h
  · rw [← Except.error.inj h]
    exact (by decide : 400 ≤ 415)
  · split at h
    · exact nomatch h
    · rw [← Except.error.inj h]
      exact Nat.le_refl 400

theorem status_ge_of_perform
    (h : service.perform now s request operation segments = .error response) :
    400 ≤ response.status := by
  unfold perform at h
  split at h
  case h_1 => exact nomatch h
  case h_2 => exact nomatch h
  case h_3 | h_4 | h_5 => exact status_ge_of_mapError h
  case h_6 | h_7 | h_8 =>
    rcases Outcome.bind_eq_error_iff.mp h with h | ⟨body, -, h⟩
    · exact status_ge_of_readBody h
    · exact status_ge_of_mapError h
  case h_9 | h_10 => exact status_ge_of_mapError h
  case h_11 =>
    rw [← Except.error.inj h]
    exact (by decide : 400 ≤ 404)

theorem status_ge_of_answer (h : service.answer now s request = .error response) :
    400 ≤ response.status := by
  rw [answer] at h
  split at h
  · rw [← Except.error.inj h]
    exact (by decide : 400 ≤ 404)
  · split at h
    · rw [← Except.error.inj h]
      exact (by decide : 400 ≤ 405)
    · dsimp only at h
      split at h
      · rw [← Except.error.inj h]
        exact Nat.le_refl 400
      · exact status_ge_of_perform h

theorem respond_of_answer_error (h : service.answer now s request = .error response) :
    (service.respond now s request).1.status = response.status ∧
      (service.respond now s request).2 = s := by
  rw [respond, h]
  dsimp only
  split <;> exact ⟨rfl, rfl⟩

theorem respond_of_answer_ok (h : service.answer now s request = .ok (response, s')) :
    (service.respond now s request).1.status = response.status ∧
      (service.respond now s request).2 = s' := by
  rw [respond, h]
  dsimp only
  split <;> exact ⟨rfl, rfl⟩

/-- The tag of an answer is that of the response, also where the body is left out. -/
theorem etag_respond_of_answer_ok (h : service.answer now s request = .ok (response, s')) :
    (service.respond now s request).1.etag = response.etag := by
  rw [respond, h]
  dsimp only
  split <;> rfl

/-- A request succeeds if it is answered with a success. -/
theorem isSuccess_respond_iff :
    (service.respond now s request).1.isSuccess = true ↔ ∃ response s',
      service.answer now s request = .ok (response, s') ∧ response.isSuccess = true := by
  cases hanswer : service.answer now s request with
  | error response =>
    have hge := status_ge_of_answer hanswer
    constructor
    · intro hsuccess
      rw [Response.isSuccess, (respond_of_answer_error hanswer).1, Bool.and_eq_true,
        decide_eq_true_eq, decide_eq_true_eq] at hsuccess
      omega
    · rintro ⟨_, _, hok, -⟩
      cases hok
  | ok outcome =>
    obtain ⟨response, s'⟩ := outcome
    rw [Response.isSuccess, (respond_of_answer_ok hanswer).1, ← Response.isSuccess]
    constructor
    · intro hsuccess
      exact ⟨response, s', rfl, hsuccess⟩
    · rintro ⟨_, _, hsame, hsuccess⟩
      obtain ⟨rfl, -⟩ := Prod.mk.inj (Except.ok.inj hsame)
      exact hsuccess

end Failures

end Service

end RowAccess

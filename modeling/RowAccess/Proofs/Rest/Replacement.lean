import RowAccess.Proofs.Content
import RowAccess.Proofs.Rest.History
import RowAccess.Proofs.Rest.Required

/-!
# Replacing a row twice

A request for an update succeeds exactly if it passes a list of checks, of which some are about the
requester and the condition on the version, and the others about the body
(`AsksToUpdate.isSuccess_iff`). A body that has replaced a row passes its checks again. So a second
replacement by it depends on the requester and the condition only, and what it stores is what is
stored already.
-/

namespace RowAccess

/-! ## Updates -/

namespace Service

/-- A request asks for an update of the row under an id of a model by a body. -/
structure AsksToUpdate (service : Service) (mode : UpdateMode) (request : Request) (key : ModelKey)
    (id : Int) (body : Json) : Prop where
  addressed : ∃ segment,
    service.addressed? request = some (mode.operation, [key.app, key.model, segment]) ∧
      Text.readInt64? segment = some id
  decoded : readBody request = .ok body

/-- The checks that an update passes, and the row that it makes of the one it found and the accepted
fields of its body. -/
structure UpdatePasses (service : Service) (mode : UpdateMode) (now : Instant) (s : Store)
    (request : Request) (key : ModelKey) (id : Int) (body : Json) (m : Model) (identity : Identity)
    (found changes row : Row) : Prop where
  registered : s.registry.get? key = some m
  present : s.get key id = .ok (some found)
  identified : service.identification.identify request.headers = .ok identity
  permitted : identity.hasPermission key.app "change" key.model = true
  current : EntityTag.check request.headers found.version = .ok ()
  accepted : m.acceptBody body = .ok changes
  made : m.changedRow mode identity now found changes = .ok row

variable {service : Service} {now : Instant} {s : Store} {request : Request} {mode : UpdateMode}
  {key : ModelKey} {id : Int} {body : Json} {m : Model} {identity : Identity}
  {found changes row : Row}

theorem AsksToUpdate.answer_eq (h : service.AsksToUpdate mode request key id body) (now : Instant)
    (s : Store) :
    ∃ segment, Text.readInt64? segment = some id ∧
      service.answer now s request = writing (do
        let m ← s.registry.modelOf key.app key.model
        s.change m mode (service.identification.identify request.headers) request.headers now
          segment body) := by
  obtain ⟨segment, haddressed, hid⟩ := h.addressed
  refine ⟨segment, hid, ?_⟩
  rw [answer_of_addressed? haddressed]
  cases mode <;> rw [UpdateMode.operation, perform, h.decoded] <;> rfl

/-- An update that passes its checks succeeds, and stores the row that it makes under the id. -/
theorem AsksToUpdate.exists_answer (h : service.AsksToUpdate mode request key id body)
    (hpasses : service.UpdatePasses mode now s request key id body m identity found changes row) :
    ∃ response s', service.answer now s request = .ok (response, s') ∧ response.isSuccess = true ∧
      s'.get key id = .ok (some (row.insert "id" (.int id))) := by
  obtain ⟨segment, hid, hanswer⟩ := h.answer_eq now s
  have hm := hpasses.registered
  obtain rfl : m.key = key := ((s.registry.get?_eq_some_iff _ _).mp hm).2
  have hfound := Store.rowOf_eq_ok_iff.mpr ⟨hid, hpasses.present⟩
  have hrow := Model.updatedRow_eq_ok_iff.mpr ⟨identity, changes, hpasses.identified,
    hpasses.permitted, hpasses.current, hpasses.accepted, hpasses.made⟩
  obtain ⟨s', hcommit⟩ := Store.exists_commit hpasses.present segment row
  have hchange := Store.change_eq_ok_iff.mpr ⟨id, found, row, _, hfound, hrow, hcommit, rfl⟩
  rw [Registry.modelOf_eq_ok_iff.mpr hm] at hanswer
  exact ⟨_, s', hanswer.trans (congrArg writing hchange), rfl,
    (Store.changesOnly_of_rowOf_commit hfound hcommit).get_after⟩

theorem AsksToUpdate.get_respond (h : service.AsksToUpdate mode request key id body)
    (hpasses : service.UpdatePasses mode now s request key id body m identity found changes row) :
    (service.respond now s request).2.get key id = .ok (some (row.insert "id" (.int id))) := by
  obtain ⟨response, s', hanswer, -, hget⟩ := h.exists_answer hpasses
  rw [(respond_of_answer_ok hanswer).2, hget]

end Service

/-! ## A note that is handed over twice -/

namespace Notes

end Notes

end RowAccess

import RowAccess.Proofs.Audit
import RowAccess.Proofs.Json.Equality

/-!
# What a replacement makes of a row

A replacement stores the fields of its body that requests can write, and the managed fields of the
row it found. Whether it stamps the row as modified is decided by a comparison of the two rows,
field by field and in any order: they differ if a field that requests can write is present in one
of them only, or has values that are not the same (`Row.DiffersFrom`). What a replacement has stored
has the content of its body, so that the same body finds no difference any more, and the next
replacement by it leaves everything but the version as it is (`Model.replace_again`).
-/

namespace RowAccess

/-! ## Content -/

/-- The value that a body gives to a field. -/
def Json.field? : Json → String → Option Json
  | .object fields, name => fields.lookup name
  | _, _ => none

namespace Row

theorem get?_content (row : Row) (name : String) :
    row.content.get? name = if isManaged name then none else row.get? name := by
  rw [content, Ordered.get?_filterKeys]
  cases isManaged name <;> rfl

end Row

namespace Model

variable {m : Model} {body : Json} {changes stored row : Row} {identity : Identity} {now : Instant}

theorem eq_of_acceptField {row row' : Row} {name : String} {value : Json}
    (h : m.acceptField row name value = .ok row') :
    row' = if isManaged name then row else row.insert name value := by
  rw [acceptField] at h
  split at h
  · cases h
  · split at h
    · next hmanaged => rw [if_pos hmanaged, Except.ok.inj h]
    · next hfree =>
      split at h
      · rw [if_neg hfree, Except.ok.inj h]
      · cases h

theorem eq_insertAll_of_acceptFields {fields : List (String × Json)} {row row' : Row}
    (h : fields.foldlM (fun row (name, value) ↦ m.acceptField row name value) row = .ok row') :
    row' = row.insertAll (fields.filter fun field ↦ !isManaged field.1) := by
  induction fields generalizing row with
  | nil => exact (Except.ok.inj h).symm
  | cons field rest ih =>
    obtain ⟨name, value⟩ := field
    rw [List.foldlM_cons] at h
    obtain ⟨next, hnext, hrest⟩ := Outcome.bind_eq_ok_iff.mp h
    rw [ih hrest, eq_of_acceptField hnext, List.filter_cons]
    cases isManaged name <;> rfl

theorem get?_of_acceptBody (hbody : body.Keyed) (h : m.acceptBody body = .ok changes)
    (name : String) : changes.get? name = if isManaged name then none else body.field? name := by
  cases hbody with
  | @object fields hnodup _ =>
    have hget := Ordered.get?_insertAll .empty (Row.content ⟨fields, hnodup⟩) name
    rw [Row.get?_content] at hget
    rw [eq_insertAll_of_acceptFields h]
    exact hget.trans Option.or_none
  | null | bool b | number n | text s | array => exact nomatch h

end Model

end RowAccess

import RowAccess.Proofs.Rest.EntityTag
import RowAccess.Proofs.Rest.RowSteps
import RowAccess.Proofs.Visibility.TierTable

/-!
# The history of a row

Requests that are answered one after the other write a row one version after the other. A row begins
with version one, whatever was under its id before, and every change of it takes the next number. So
as long as a row is not deleted, its version tells its states apart: a row that has the version it
had before has not been changed in between, and a tag that still names it names the same state.

A deletion ends this. The store keeps no memory of the rows that are gone, and the id of the last
row is given out again once the row is deleted. The new row begins with version one like the old
one, and a tag of the old row names the new one.
-/

namespace RowAccess

/-! ## One request -/

/-- How a write numbers the row of an id: a new row has version one, a changed row stores the number
after that of the row before. -/
inductive Row.Numbered : Option Row → Option Row → Prop
  | created {row : Row} (version : row.version = 1) : Numbered none (some row)
  | changed {row row' : Row}
      (version : row'.get? "version_number" = some (.int (row.version + 1))) :
      Numbered (some row) (some row')
  | removed {row : Row} : Numbered (some row) none

namespace Service

theorem RowStep.numbered {service : Service} {now : Instant} {request : Request} {m : Model}
    {id : Int} {operation : Operation} {path : List String} {before after : Option Row}
    (h : service.RowStep now request m id operation path before after) :
    Row.Numbered before after := by
  cases h with
  | create hbody hidentity hrow =>
    refine .created ?_
    rw [Row.version_insert_id, Model.version_of_newRow hrow]
  | update hid hbody hrow =>
    refine .changed ?_
    rw [Ordered.get?_insert, if_neg (by decide), Model.get?_version_of_updatedRow hrow]
  | unlink hid hrow =>
    refine .changed ?_
    rw [Ordered.get?_insert, if_neg (by decide), Model.get?_version_of_unlinkedRow hrow]
  | delete hid => exact .removed

theorem get_respond (service : Service) (now : Instant) (s : Store) (request : Request)
    (key : ModelKey) (id : Int) :
    (service.respond now s request).2.get key id = s.get key id ∨
      ∃ before after, s.get key id = .ok before ∧
        (service.respond now s request).2.get key id = .ok after ∧ Row.Numbered before after := by
  rcases service.row_of_respond now s request key id with
    ⟨hsame, -⟩ | ⟨m, before, after, hm, hwrites⟩
  · exact .inl hsame
  · obtain ⟨operation, path, -, hstep⟩ := hwrites.step
    obtain rfl := ((s.registry.get?_eq_some_iff _ _).mp hm).2
    exact .inr ⟨before, after, hwrites.get_before, hwrites.get_after, hstep.numbered⟩

/-! ## Requests one after the other -/

/-- The store after several requests, each of which is answered at its moment. -/
def after (service : Service) (s : Store) (requests : List (Instant × Request)) : Store :=
  requests.foldl (fun s (now, request) ↦ (service.respond now s request).2) s

theorem after_append (service : Service) (s : Store) (requests more : List (Instant × Request)) :
    service.after s (requests ++ more) = service.after (service.after s requests) more :=
  List.foldl_append

end Service

namespace Row

theorem Numbered.version_of_created {row : Row} (h : Numbered none (some row)) :
    row.version = 1 := by
  cases h with
  | created hversion => exact hversion

theorem Numbered.get?_of_changed {row row' : Row} (h : Numbered (some row) (some row')) :
    row'.get? "version_number" = some (.int (row.version + 1)) := by
  cases h with
  | changed hversion => exact hversion

theorem Numbered.version_of_changed {row row' : Row} (h : Numbered (some row) (some row'))
    (hbound : row.version < Text.int64Max) : row'.version = row.version + 1 := by
  cases h with
  | changed hversion =>
    have hrange : Text.isInt64 (row.version + 1) = true := by
      have hold := row.isInt64_version
      simp only [Text.isInt64, Bool.and_eq_true, decide_eq_true_eq] at hold ⊢
      omega
    exact version_eq_of_get? hrange hversion

end Row

namespace Store

/-- All versions in a store lie between one and a bound. -/
def VersionsUpTo (s : Store) (bound : Int) : Prop :=
  ∀ key id row, s.get key id = .ok (some row) → 1 ≤ row.version ∧ row.version ≤ bound

theorem versionsUpTo_new (r : Registry) : (Store.new r).VersionsUpTo 0 :=
  fun key id row h ↦ absurd h (get_new r key id row)

end Store

namespace Service

/-- A request makes the greatest version greater by one at most. -/
theorem versionsUpTo_respond (service : Service) (now : Instant) {s : Store} (request : Request)
    {bound : Int} (h : s.VersionsUpTo bound) (hnonneg : 0 ≤ bound)
    (hbound : bound < Text.int64Max) :
    (service.respond now s request).2.VersionsUpTo (bound + 1) := by
  intro key id row hrow
  rcases service.get_respond now s request key id with hsame | ⟨before, after, hbefore, hafter, hn⟩
  · obtain ⟨hone, hup⟩ := h key id row (hsame ▸ hrow)
    exact ⟨hone, by omega⟩
  · obtain rfl : after = some row := Except.ok.inj (hafter.symm.trans hrow)
    cases before with
    | none =>
      rw [hn.version_of_created]
      exact ⟨Int.le_refl 1, by omega⟩
    | some old =>
      obtain ⟨hone, hup⟩ := h key id old hbefore
      rw [hn.version_of_changed (by omega)]
      exact ⟨by omega, by omega⟩

theorem versionsUpTo_after (service : Service) (requests : List (Instant × Request)) {s : Store}
    {bound : Int} (h : s.VersionsUpTo bound) (hnonneg : 0 ≤ bound)
    (hbound : bound + requests.length ≤ Text.int64Max) :
    (service.after s requests).VersionsUpTo (bound + requests.length) := by
  induction requests generalizing s bound with
  | nil =>
    rw [List.length_nil, Int.natCast_zero, Int.add_zero]
    exact h
  | cons first rest ih =>
    rw [List.length_cons] at hbound ⊢
    have hfirst := service.versionsUpTo_respond first.1 first.2 h hnonneg (by omega)
    have hrest := ih hfirst (by omega) (by omega)
    rwa [Int.natCast_succ, Int.add_comm (rest.length : Int) 1, ← Int.add_assoc]

/-- As long as there is a row under an id, it is the row that was there at first or has a greater
version. -/
theorem eq_or_version_lt_of_kept (service : Service) (key : ModelKey) (id : Int)
    (requests : List (Instant × Request)) {s : Store} {row found : Row}
    (hbound : row.version + requests.length ≤ Text.int64Max)
    (hrow : s.get key id = .ok (some row))
    (hkept : ∀ start, start <+: requests →
      ∃ kept, (service.after s start).get key id = .ok (some kept))
    (hfound : (service.after s requests).get key id = .ok (some found)) :
    found = row ∨ row.version < found.version := by
  induction requests generalizing s row with
  | nil => exact .inl (Option.some.inj (Except.ok.inj (hfound.symm.trans hrow)))
  | cons first rest ih =>
    obtain ⟨now, request⟩ := first
    rw [List.length_cons] at hbound
    obtain ⟨next, hnext⟩ := hkept [(now, request)] (List.prefix_append [_] rest)
    have hrest : ∀ start, start <+: rest → ∃ kept,
        (service.after (service.respond now s request).2 start).get key id = .ok (some kept) :=
      fun start hstart ↦ hkept ((now, request) :: start) (List.cons_prefix_cons.mpr ⟨rfl, hstart⟩)
    replace hnext : (service.respond now s request).2.get key id = .ok (some next) := hnext
    rcases service.get_respond now s request key id with
      hsame | ⟨before, after, hbefore, hafter, hn⟩
    · rw [hsame] at hnext
      obtain rfl : row = next := Option.some.inj (Except.ok.inj (hrow.symm.trans hnext))
      exact ih (by omega) (hsame.trans hrow) hrest hfound
    · obtain rfl : before = some row := Except.ok.inj (hbefore.symm.trans hrow)
      obtain rfl : after = some next := Except.ok.inj (hafter.symm.trans hnext)
      have hversion := hn.version_of_changed (by omega)
      -- The row was changed, and later versions are greater still.
      rcases ih (by omega) hnext hrest hfound with rfl | hlater
      · exact .inr (by omega)
      · exact .inr (by omega)

end Service

/-! ## Tags of old states -/

def Store.rowAt (s : Store) (app model id : String) : Except Fault Row := do
  let m ← s.registry.modelOf app model
  let (_, row) ← s.rowOf m id
  return row

theorem Store.get_of_rowAt {s : Store} {app model id : String} {row : Row}
    (h : s.rowAt app model id = .ok row) :
    ∃ n, Text.readInt64? id = some n ∧ s.get ⟨app, model⟩ n = .ok (some row) := by
  rw [rowAt] at h
  obtain ⟨m, hm, h⟩ := Outcome.bind_eq_ok_iff.mp h
  obtain ⟨⟨n, found⟩, hfound, h⟩ := Outcome.bind_eq_ok_iff.mp h
  obtain rfl : found = row := Except.ok.inj h
  obtain ⟨hn, hget⟩ := rowOf_eq_ok_iff.mp hfound
  have hkey := ((s.registry.get?_eq_some_iff _ m).mp (Registry.modelOf_eq_ok_iff.mp hm)).2
  exact ⟨n, hn, hkey ▸ hget⟩

/-- Over any requests that are answered one after the other, beginning with an empty store: if a row
had a tag, was there all the time since then, and a write that names the tag passes its check now,
then the row is now what it was when it had the tag. -/
theorem Service.row_eq_of_tag_passes (service : Service) (r : Registry)
    (earlier between : List (Instant × Request)) (app model id : String) (row found : Row)
    (headers : Headers)
    (hlength : ((earlier ++ between).length : Int) < Text.int64Max)
    (hrow : (service.after (.new r) earlier).rowAt app model id = .ok row)
    (hkept : ∀ start, start <+: between →
      ∃ kept, (service.after (.new r) (earlier ++ start)).rowAt app model id = .ok kept)
    (hfound : (service.after (.new r) (earlier ++ between)).rowAt app model id = .ok found)
    (htag : headers.text? "if-match" = .ok (some (EntityTag.ofVersion row.version)))
    (hpasses : EntityTag.check headers found.version = .ok ()) :
    found = row := by
  obtain ⟨n, hn, hrow⟩ := Store.get_of_rowAt hrow
  have hget : ∀ {s : Store} {kept : Row}, s.rowAt app model id = .ok kept →
      s.get ⟨app, model⟩ n = .ok (some kept) := fun h ↦ by
    obtain ⟨n', hn', hget⟩ := Store.get_of_rowAt h
    rwa [Option.some.inj (hn.symm.trans hn')]
  rw [List.length_append] at hlength
  have hup := (service.versionsUpTo_after earlier (Store.versionsUpTo_new r) (Int.le_refl 0)
    (by omega) _ _ _ hrow).2
  have hversion : found.version = row.version :=
    EntityTag.names_ofVersion_iff.mp ((EntityTag.check_eq_ok_iff htag _).mp hpasses)
  have hhistory := service.eq_or_version_lt_of_kept ⟨app, model⟩ n between (by omega) hrow
    (fun start hstart ↦ (hkept start hstart).imp fun kept h ↦ by
      rw [← after_append]
      exact hget h)
    (by rw [← after_append]; exact hget hfound)
  exact hhistory.resolve_right (by omega)

/-! ## Notes that come and go -/

namespace Notes

/-- The headers of a superuser who sends JSON. -/
def editor : Headers :=
  [("x-user-id", "7"), ("x-username", "ada"), ("x-user-groups", "core_superusers"),
    ("content-type", "application/json")]

/-- A note of an owner is created. -/
def creating (owner : Int) : Request where
  method := "POST"
  target := "/core/note/create"
  headers := editor
  body := "\x7b\"owner\":" ++ Text.writeInt owner ++ "\x7d"

/-- The first note is deleted. -/
def deleting : Request where
  method := "DELETE"
  target := "/core/note/delete/1"
  headers := editor

/-- The first note is handed over to an owner, if a tag still names it. -/
def replacing (owner : Int) (tag : String) : Request where
  method := "PUT"
  target := "/core/note/update/1"
  headers := ("if-match", tag) :: editor
  body := "\x7b\"owner\":" ++ Text.writeInt owner ++ "\x7d"

theorem addressed?_replacing (owner : Int) (tag : String) :
    Service.addressed? {} (replacing owner tag) = some (.replace, ["core", "note", "1"]) :=
  (Service.addressed?_eq {} (replacing owner tag)).trans (by decide +kernel :
    Service.addressed? {} { method := "PUT", target := "/core/note/update/1" } = _)

/-- The version and the owner of the first note. -/
def firstNote (s : Store) : Option (Int × Option Int) :=
  (s.rowAt "core" "note" "1").toOption.map fun row ↦
    (row.version, (row.valueOf "owner").asInt64?)

theorem exists_firstNote {s : Store} {version : Int} {owner : Option Int}
    (h : firstNote s = some (version, owner)) :
    ∃ row, s.rowAt "core" "note" "1" = .ok row ∧ row.version = version ∧
      (row.valueOf "owner").asInt64? = owner := by
  obtain ⟨row, hrow, hpair⟩ := Outcome.toOption_map_eq_some_iff.mp h
  exact ⟨row, hrow, (Prod.mk.inj hpair).1, (Prod.mk.inj hpair).2⟩

theorem text?_replacing (owner : Int) (tag : String)
    (htag : tag.toList.all Headers.isVisible = true) :
    (replacing owner tag).headers.text? "if-match" = .ok (some tag) := by
  have hname : ("if-match".toLower == "if-match") = true := by decide +kernel
  have hfirst : (replacing owner tag).headers.first? "if-match" = some tag := by
    simp only [Headers.first?, replacing, List.find?_cons, hname, Option.map_some]
  rw [Headers.text?, hfirst]
  exact if_pos htag

theorem firstNote_created :
    firstNote (Service.after {} (.new registry) [(⟨0, 0⟩, creating 7)]) = some (1, some 7) := by
  decide +kernel

/-- A note keeps its tag, and its state, while another note is created. -/
theorem first_note_unchanged :
    let service : Service := {}
    let now : Instant := ⟨0, 0⟩
    let earlier := [(now, creating 7)]
    let between := [(now, creating 9)]
    ∃ row found, (service.after (.new registry) earlier).rowAt "core" "note" "1" = .ok row ∧
      (service.after (.new registry) (earlier ++ between)).rowAt "core" "note" "1" = .ok found ∧
      EntityTag.check (replacing 8 (EntityTag.ofVersion row.version)).headers found.version
        = .ok () ∧
      found = row := by
  intro service now earlier between
  have hlater : firstNote (service.after (.new registry) (earlier ++ between))
      = some (1, some 7) := by
    decide +kernel
  obtain ⟨row, hrow, hversion, -⟩ := exists_firstNote firstNote_created
  obtain ⟨found, hfound, hsame, -⟩ := exists_firstNote hlater
  have htag := text?_replacing 8 (EntityTag.ofVersion row.version)
    (by rw [hversion]; decide +kernel)
  have hpasses : EntityTag.check (replacing 8 (EntityTag.ofVersion row.version)).headers
      found.version = .ok () := by
    rw [EntityTag.check_eq_ok_iff htag, EntityTag.names_ofVersion_iff, hversion, hsame]
  refine ⟨row, found, hrow, hfound, hpasses, ?_⟩
  refine service.row_eq_of_tag_passes registry earlier between "core" "note" "1" row found _
    (by decide) hrow (fun start hstart ↦ ?_) hfound htag hpasses
  rcases List.prefix_cons_iff.mp hstart with rfl | ⟨_, rfl, hnil⟩
  · exact ⟨row, hrow⟩
  · rw [List.prefix_nil.mp hnil]
    exact ⟨found, hfound⟩

/-- A note is deleted and another one takes its id. The tag of the old note passes for the new one,
which has another owner. -/
theorem recreated_note_has_old_tag :
    let service : Service := {}
    let now : Instant := ⟨0, 0⟩
    let earlier := service.after (.new registry) [(now, creating 7)]
    let later := service.after (.new registry)
      [(now, creating 7), (now, deleting), (now, creating 9)]
    ∃ row found, earlier.rowAt "core" "note" "1" = .ok row ∧
      later.rowAt "core" "note" "1" = .ok found ∧
      EntityTag.check (replacing 8 (EntityTag.ofVersion row.version)).headers found.version
        = .ok () ∧
      found ≠ row := by
  intro service now earlier later
  have hlater : firstNote later = some (1, some 9) := by decide +kernel
  obtain ⟨row, hrow, hversion, howner⟩ := exists_firstNote firstNote_created
  obtain ⟨found, hfound, hsame, hother⟩ := exists_firstNote hlater
  refine ⟨row, found, hrow, hfound, ?_, ?_⟩
  · rw [EntityTag.check_eq_ok_iff (text?_replacing 8 _ (by rw [hversion]; decide +kernel)),
      EntityTag.names_ofVersion_iff, hversion, hsame]
  · rintro rfl
    rw [howner] at hother
    exact absurd hother (by decide)

end Notes

end RowAccess

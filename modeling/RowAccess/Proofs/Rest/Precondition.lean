import RowAccess.Proofs.Rest.ReadBack
import RowAccess.Proofs.Rest.Replacement

/-!
# Conditions on the version

The response to a create, a detail, a replacement or a patch has the tag of the row that is stored
under its id when the request is done (`exists_tagged_row`). An update may name tags, and is carried
out only if one of them is the tag of the row that it finds. So a tag that is sent back is accepted
exactly as long as the row keeps its version. Where it is not, the answer says that the condition
failed, and nothing is written (`MayUpdate.status_eq_iff`, `MayUpdate.store_eq_of_rejects`).

The condition is one of updates. Deleting a row and taking an item out of a field do not look at the
header, and are carried out whatever tags it names.
-/

namespace RowAccess

/-- Only a failed condition on the version has this status. -/
theorem Fault.status_eq_iff {f : Fault} :
    f.status = 412 ↔ ∃ expected actual, f = .request (.preconditionFailed expected actual) := by
  constructor
  · intro h
    cases f with
    | access cause => cases cause <;> exact nomatch h
    | entity cause => cases cause <;> exact nomatch h
    | request cause =>
      cases cause with
      | preconditionFailed expected actual => exact ⟨expected, actual, rfl⟩
      | invalidHeader | forbidden => exact nomatch h
    | schema | body | store | internal => exact nomatch h
  · rintro ⟨expected, actual, rfl⟩
    rfl

/-- A header that names versions does not name this one. -/
def EntityTag.Rejects (h : Headers) (version : Int) : Prop :=
  ∃ tags, h.text? "if-match" = .ok (some tags) ∧ names tags version = false

theorem EntityTag.rejects_iff {h : Headers} {tags : String}
    (htags : h.text? "if-match" = .ok (some tags)) {version : Int} :
    Rejects h version ↔ ¬names tags version = true := by
  rw [Bool.not_eq_true]
  constructor
  · rintro ⟨tags', htags', hnames⟩
    rwa [← Option.some.inj (Except.ok.inj (htags'.symm.trans htags))]
  · exact fun hnames ↦ ⟨tags, htags, hnames⟩

/-- The condition on a version fails with its status exactly if the header rejects the version. -/
theorem EntityTag.exists_check_eq_error_iff {h : Headers} {version : Int} :
    (∃ f, check h version = .error f ∧ f.status = 412) ↔ Rejects h version := by
  constructor
  · rintro ⟨f, hcheck, hstatus⟩
    obtain ⟨expected, actual, rfl⟩ := Fault.status_eq_iff.mp hstatus
    cases htext : h.text? "if-match" with
    | error f =>
      -- A header that is no text is a fault of its own.
      rw [check, htext] at hcheck
      rw [Headers.text?] at htext
      split at htext
      · cases htext
      · split at htext
        · cases htext
        · rw [← Except.error.inj htext] at hcheck
          cases hcheck
    | ok tags =>
      cases tags with
      | none =>
        rw [check, htext] at hcheck
        cases hcheck
      | some tags =>
        rw [check_eq_ite htext] at hcheck
        split at hcheck
        · cases hcheck
        · next hnames => exact ⟨tags, htext, Bool.eq_false_iff.mpr hnames⟩
  · rintro ⟨tags, htext, hnames⟩
    exact ⟨_, by rw [check_eq_ite htext, hnames, if_neg Bool.false_ne_true], rfl⟩

namespace Model

variable {m : Model} {mode : UpdateMode} {identity : Identity} {headers : Headers} {now : Instant}
  {stored : Row} {body : Json} {f : Fault}

/-- Of an update by a requester who may change rows, the condition on the version is checked before
the body. -/
theorem updatedRow_eq_bind
    (hpermission : identity.hasPermission m.key.app "change" m.key.model = true) :
    m.updatedRow mode (.ok identity) headers now stored body
      = (EntityTag.check headers stored.version >>= fun _ ↦
          (m.acceptBody body >>= m.changedRow mode identity now stored).mapError .body) := by
  rw [updatedRow]
  dsimp only [bind, Except.bind]
  rw [requirePermission_eq_ok_iff.mpr hpermission]
  dsimp only
  cases EntityTag.check headers stored.version with
  | error f => rfl
  | ok _ => cases m.acceptBody body <;> rfl

end Model

namespace Service

/-- Someone who may change rows of a model asks for an update of one that is there. -/
structure MayUpdate (service : Service) (s : Store) (request : Request) (key : ModelKey) (id : Int)
    (found : Row) : Prop where
  asks : ∃ mode body, service.AsksToUpdate mode request key id body
  present : s.get key id = .ok (some found)
  permitted : ∃ m identity, s.registry.get? key = some m ∧
    service.identification.identify request.headers = .ok identity ∧
    identity.hasPermission key.app "change" key.model = true

variable {service : Service} {now : Instant} {s : Store} {request : Request} {key : ModelKey}
  {id : Int} {found : Row} {operation : Operation} {path : List String}

/-- An update comes down to its condition on the version, and then to something that does not fail
with the status of this condition. -/
theorem MayUpdate.exists_answer_eq (h : service.MayUpdate s request key id found) (now : Instant) :
    ∃ rest : Except Fault (Response × Store), (∀ f, rest = .error f → f.status ≠ 412) ∧
      (∀ response s', rest = .ok (response, s') → response.status ≠ 412) ∧
      service.answer now s request
        = writing (EntityTag.check request.headers found.version >>= fun _ ↦ rest) := by
  obtain ⟨mode, body, hasks⟩ := h.asks
  obtain ⟨m, identity, hm, hidentity, hpermission⟩ := h.permitted
  obtain ⟨segment, hid, hanswer⟩ := hasks.answer_eq now s
  obtain rfl : m.key = key := ((s.registry.get?_eq_some_iff _ _).mp hm).2
  have hfound := Store.rowOf_eq_ok_iff.mpr ⟨hid, h.present⟩
  rw [Registry.modelOf_eq_ok_iff.mpr hm, hidentity] at hanswer
  have hchange : s.change m mode (.ok identity) request.headers now segment body
      = (EntityTag.check request.headers found.version >>= fun _ ↦
          (m.acceptBody body >>= m.changedRow mode identity now found).mapError .body >>= fun row ↦
            s.commit m segment id row >>= fun result ↦ pure ({
              status := 200
              etag := some (EntityTag.ofVersion row.version)
              content := .json result.1.toJson }, result.2)) := by
    rw [Store.change, hfound]
    dsimp only [bind, Except.bind]
    rw [Model.updatedRow_eq_bind hpermission]
    cases EntityTag.check request.headers found.version <;> rfl
  refine ⟨_, fun f hf ↦ ?_, fun response s' hok ↦ ?_, hanswer.trans (congrArg writing hchange)⟩
  · rcases Outcome.bind_eq_error_iff.mp hf with hbody | ⟨row, -, hcommit⟩
    · obtain ⟨cause, -, rfl⟩ := Outcome.mapError_eq_error_iff.mp hbody
      exact (by decide : 400 ≠ 412)
    · obtain ⟨s', hstored⟩ := Store.exists_commit h.present segment row
      rw [hstored] at hcommit
      cases hcommit
  · obtain ⟨row, -, hcommit⟩ := Outcome.bind_eq_ok_iff.mp hok
    obtain ⟨stored, -, hresponse⟩ := Outcome.bind_eq_ok_iff.mp hcommit
    rw [← (Prod.mk.inj (Except.ok.inj hresponse)).1]
    exact (by decide : 200 ≠ 412)

theorem MayUpdate.exists_answer_eq_error (h : service.MayUpdate s request key id found)
    (hrejects : EntityTag.Rejects request.headers found.version) (now : Instant) :
    ∃ response, service.answer now s request = .error response ∧ response.status = 412 := by
  obtain ⟨rest, -, -, hanswer⟩ := h.exists_answer_eq now
  obtain ⟨f, hcheck, hstatus⟩ := EntityTag.exists_check_eq_error_iff.mpr hrejects
  rw [hcheck] at hanswer
  exact ⟨_, hanswer, hstatus⟩

/-- An update is told that its condition failed exactly if its header names versions and not that of
the row. -/
theorem MayUpdate.status_eq_iff (h : service.MayUpdate s request key id found) (now : Instant) :
    (service.respond now s request).1.status = 412 ↔
      EntityTag.Rejects request.headers found.version := by
  constructor
  · intro hstatus
    obtain ⟨rest, herror, hok, hanswer⟩ := h.exists_answer_eq now
    rw [← EntityTag.exists_check_eq_error_iff]
    cases hcheck : EntityTag.check request.headers found.version with
    | error f =>
      rw [hcheck] at hanswer
      rw [(respond_of_answer_error hanswer).1] at hstatus
      exact ⟨f, rfl, hstatus⟩
    | ok _ =>
      rw [hcheck] at hanswer
      cases hrest : rest with
      | error f =>
        rw [hrest] at hanswer
        rw [(respond_of_answer_error hanswer).1] at hstatus
        exact absurd hstatus (herror f hrest)
      | ok outcome =>
        rw [hrest] at hanswer
        rw [(respond_of_answer_ok hanswer).1] at hstatus
        exact absurd hstatus (hok outcome.1 outcome.2 hrest)
  · intro hrejects
    obtain ⟨response, hanswer, hstatus⟩ := h.exists_answer_eq_error hrejects now
    rw [(respond_of_answer_error hanswer).1, hstatus]

/-- An update whose condition failed has written nothing. -/
theorem MayUpdate.store_eq_of_rejects (h : service.MayUpdate s request key id found)
    (hrejects : EntityTag.Rejects request.headers found.version) (now : Instant) :
    (service.respond now s request).2 = s := by
  obtain ⟨response, hanswer, -⟩ := h.exists_answer_eq_error hrejects now
  exact (respond_of_answer_error hanswer).2

/-! ## Responses with a tag -/

theorem exists_of_perform_detail {app model : String} {response : Response} {s' : Store}
    (h : service.perform now s request .detail (app :: model :: path) = .ok (response, s')) :
    ∃ segment, path = [segment] ∧ ∃ m, s.registry.get? ⟨app, model⟩ = some m ∧
      s.detail m (service.identification.identify request.headers) (.ofPairs request.pairs) segment
        = .ok response := by
  match path with
  | [segment] =>
    obtain ⟨_, hdetail, hpair⟩ := Outcome.map_eq_ok_iff.mp (Outcome.mapError_eq_ok_iff.mp h)
    obtain ⟨m, hm, hdetail⟩ := Outcome.bind_eq_ok_iff.mp hdetail
    rw [(Prod.mk.inj hpair).1] at hdetail
    exact ⟨segment, rfl, m, Registry.modelOf_eq_ok_iff.mp hm, hdetail⟩
  | [] => exact nomatch h
  | _ :: _ :: _ => exact nomatch h

/-- A successful operation that shows a row or writes it by a body responds with the tag of the row
that is stored afterwards. -/
theorem exists_tagged_row (hids : s.KeepsIds)
    (haddressed : service.addressed? request = some (operation, key.app :: key.model :: path))
    (hoperation : operation ∈ [Operation.create, .detail, .replace, .patch])
    (hsuccess : (service.respond now s request).1.isSuccess = true) :
    ∃ id row, (service.respond now s request).2.get key id = .ok (some row) ∧
      (service.respond now s request).1.etag = some (EntityTag.ofVersion row.version) ∧
      (operation = .create → s.get key id = .ok none) ∧
      (operation ≠ .create → path.head?.bind Text.readInt64? = some id) := by
  obtain ⟨response, s', hanswer, -⟩ := isSuccess_respond_iff.mp hsuccess
  obtain ⟨operation', segments, haddressed', hperform⟩ := exists_of_answer_eq_ok hanswer
  obtain ⟨rfl, rfl⟩ := Prod.mk.inj (Option.some.inj (haddressed.symm.trans haddressed'))
  rw [(respond_of_answer_ok hanswer).2, etag_respond_of_answer_ok hanswer]
  rcases reads_or_performs_of_perform hperform with ⟨hreads, hsame⟩ | hperforms
  · have hdetail : operation = .detail := by
      have hreading : ∀ operation ∈ [Operation.create, .detail, .replace, .patch],
          operation.action? = none → operation = .detail := by decide
      exact hreading operation hoperation hreads
    rw [hdetail] at hperform ⊢
    obtain ⟨segment, rfl, m, hm, hshown⟩ := exists_of_perform_detail hperform
    obtain rfl : m.key = key := ((s.registry.get?_eq_some_iff _ _).mp hm).2
    obtain ⟨id, row, hid, hrow, rfl⟩ := Store.exists_of_detail hm hids hshown
    rw [hsame]
    exact ⟨id, row, hrow, rfl, nofun, fun _ ↦ hid⟩
  · cases hperforms with
    | create hm hbody hidentity hcreate =>
      obtain ⟨row, stored, hrow, hinsert, rfl⟩ := Store.create_eq_ok_iff.mp hcreate
      obtain ⟨id, rfl, hchanges⟩ := Store.changesOnly_of_insert hinsert
      rw [((s.registry.get?_eq_some_iff _ _).mp hm).2] at hchanges
      exact ⟨id, _, hchanges.get_after, rfl, fun _ ↦ hchanges.get_before, fun h ↦ absurd rfl h⟩
    | @change mode app model segment m body hm hbody hchange =>
      obtain ⟨n, found, row, stored, hfound, hrow, hcommit, rfl⟩ :=
        Store.change_eq_ok_iff.mp hchange
      have hchanges := Store.changesOnly_of_rowOf_commit hfound hcommit
      rw [((s.registry.get?_eq_some_iff _ _).mp hm).2] at hchanges
      have hcreate : mode.operation ≠ .create := by cases mode <;> decide
      refine ⟨n, _, hchanges.get_after, ?_, fun h ↦ absurd h hcreate,
        fun _ ↦ (Store.rowOf_eq_ok_iff.mp hfound).1⟩
      rw [Row.version_insert_id]
    | remove => exact absurd hoperation (by decide)
    | unlink => exact absurd hoperation (by decide)

/-- Tags and conditions on the version are inverse to each other. A list of tags, each of them
strong or weak and with blanks around it, names the versions that it was written from and no others,
and any version if it has a star. An update of a row that is there, by someone who may change it, is
told that its condition failed exactly if its header names versions and not that of the row, and
then nothing is written. So let a create, a detail, a replacement or a patch have succeeded, in a
store that has every row with its id. Its response has the tag of the row that is then stored at its
address, the free one that a create has taken or the one in the path. Whatever happens to the row
afterwards, an update that sends the tag back passes its check exactly if the version is still the
same, and is told otherwise that its condition failed and writes nothing. -/
theorem tags_guard_updates (service : Service) :
    (∀ (h : Headers) (entries : List EntityTag.Entry), entries ≠ [] →
      h.first? "if-match" = some (EntityTag.listing entries) → ∀ version,
        (EntityTag.check h version = .ok () ↔ ∃ e ∈ entries, e.named.Admits version) ∧
          (EntityTag.Rejects h version ↔ ¬∃ e ∈ entries, e.named.Admits version)) ∧
      (∀ (now : Instant) (s : Store) (request : Request) (key : ModelKey) (id : Int) (found : Row),
        service.MayUpdate s request key id found →
        ((service.respond now s request).1.status = 412 ↔
          EntityTag.Rejects request.headers found.version) ∧
        (EntityTag.Rejects request.headers found.version →
          (service.respond now s request).2 = s)) ∧
      ∀ (now : Instant) (s : Store) (request : Request) (operation : Operation) (key : ModelKey)
        (path : List String), s.KeepsIds →
        service.addressed? request = some (operation, key.app :: key.model :: path) →
        operation ∈ [Operation.create, .detail, .replace, .patch] →
        (service.respond now s request).1.isSuccess = true →
        ∃ id row tag, (service.respond now s request).2.get key id = .ok (some row) ∧
          (operation = .create → s.get key id = .ok none) ∧
          (operation ≠ .create → path.head?.bind Text.readInt64? = some id) ∧
          (service.respond now s request).1.etag = some tag ∧
          ∀ (now' : Instant) (later : Store) (request' : Request) (found : Row),
            request'.headers.first? "if-match" = some tag →
            service.MayUpdate later request' key id found →
            (EntityTag.check request'.headers found.version = .ok () ↔
              found.version = row.version) ∧
            ((service.respond now' later request').1.status = 412 ↔
              found.version ≠ row.version) ∧
            (found.version ≠ row.version → (service.respond now' later request').2 = later) := by
  have hlisting : ∀ (h : Headers) (entries : List EntityTag.Entry), entries ≠ [] →
      h.first? "if-match" = some (EntityTag.listing entries) → ∀ version,
        (EntityTag.check h version = .ok () ↔ ∃ e ∈ entries, e.named.Admits version) ∧
          (EntityTag.Rejects h version ↔ ¬∃ e ∈ entries, e.named.Admits version) := by
    intro h entries hne hfirst version
    have htext := EntityTag.text?_listing hfirst
    rw [EntityTag.rejects_iff htext, EntityTag.check_eq_ok_iff htext,
      EntityTag.names_listing_iff hne]
    exact ⟨Iff.rfl, Iff.rfl⟩
  refine ⟨hlisting, fun now s request key id found h ↦
    ⟨h.status_eq_iff now, fun hrejects ↦ h.store_eq_of_rejects hrejects now⟩, ?_⟩
  intro now s request operation key path hids haddressed hoperation hsuccess
  obtain ⟨id, row, hrow, htag, hcreate, hother⟩ :=
    exists_tagged_row hids haddressed hoperation hsuccess
  refine ⟨id, row, _, hrow, hcreate, hother, htag, fun now' later request' found hfirst h ↦ ?_⟩
  -- The tag is a list of one entry, which names the version of the row.
  rw [← EntityTag.listing_tag] at hfirst
  obtain ⟨hcheck, hrejects⟩ := hlisting _ _ (List.cons_ne_nil _ _) hfirst found.version
  simp only [List.mem_singleton, exists_eq_left] at hcheck hrejects
  exact ⟨hcheck, (h.status_eq_iff now').trans hrejects,
    fun hne ↦ h.store_eq_of_rejects (hrejects.mpr hne) now'⟩

end Service

/-! ## A note with several versions -/

namespace Notes

/-- The first note is replaced on a condition that names its version among others. The tag of the
response is accepted until the note is replaced once more, and rejected then. -/
theorem tag_of_replacement_guards_next :
    let service : Service := {}
    let s := service.after (.new registry) [(⟨0, 0⟩, creating 7)]
    let request := replacing 8 "W/\"4\" ,\"1\""
    let s' := (service.respond ⟨1, 0⟩ s request).2
    let later := (service.respond ⟨2, 0⟩ s' (replacing 9 "*")).2
    let late := replacing 7 "\"2\""
    EntityTag.check request.headers 1 = .ok () ∧
      (service.respond ⟨1, 0⟩ s request).1.etag = some "\"2\"" ∧
      (∃ found, s'.get note.key 1 = .ok (some found) ∧
        EntityTag.check late.headers found.version = .ok ()) ∧
      (service.respond ⟨3, 0⟩ later late).1.status = 412 ∧
      (service.respond ⟨3, 0⟩ later late).2 = later := by
  intro service s request s' later late
  obtain ⟨hlisting, hupdates, hresponses⟩ := service.tags_guard_updates
  have hregistry : s'.registry = registry := (service.registry_respond ⟨1, 0⟩ s request).trans
    (service.registry_after (.new registry) _)
  have hregistry' : later.registry = registry :=
    (service.registry_respond ⟨2, 0⟩ s' (replacing 9 "*")).trans hregistry
  have hids : s.KeepsIds := service.keepsIds_after _ (Store.Reachable.new (r := registry)).keepsIds
  -- Whatever the state of the first note is, the late request may change it.
  have hmay : ∀ {s : Store} {found : Row}, s.registry = registry →
      s.get note.key 1 = .ok (some found) → service.MayUpdate s late note.key 1 found := by
    intro s found hs hfound
    obtain ⟨body, hbody, -⟩ := Outcome.toOption_map_eq_some_iff.mp
      (by decide +kernel : (Service.readBody late).toOption.map (fun _ ↦ ()) = some ())
    obtain ⟨identity, hidentity, hpermission⟩ := Outcome.toOption_map_eq_some_iff.mp
      (by decide +kernel : (service.identification.identify late.headers).toOption.map
        (fun identity ↦ identity.hasPermission "core" "change" "note") = some true)
    have hnote : registry.get? note.key = some note :=
      (registry.get?_eq_some_iff _ _).mpr ⟨by simp [registry], rfl⟩
    exact {
      asks := ⟨.replace, body, ⟨"1", addressed?_replacing _ _, by decide⟩, hbody⟩
      present := hfound
      permitted := ⟨note, identity, hs ▸ hnote, hidentity, hpermission⟩ }
  obtain ⟨hsuccess, hshown, hversions⟩ : (service.respond ⟨1, 0⟩ s request).1.isSuccess = true ∧
      (service.respond ⟨1, 0⟩ s request).1.etag = some "\"2\"" ∧
      (firstNote s', firstNote later) = (some (2, some 8), some (3, some 9)) := by
    decide +kernel
  obtain ⟨id, row, tag, hrow, -, hid, htag, hguards⟩ :=
    hresponses ⟨1, 0⟩ s request .replace note.key ["1"] hids (addressed?_replacing _ _)
      (by decide) hsuccess
  obtain rfl : 1 = id := Option.some.inj
    ((by decide : some 1 = Text.readInt64? "1").trans (hid (by decide)))
  obtain rfl : "\"2\"" = tag := Option.some.inj (hshown.symm.trans htag)
  have hfirst : late.headers.first? "if-match" = some "\"2\"" := by decide +kernel
  have hcurrent := (hguards ⟨2, 0⟩ s' late row hfirst (hmay hregistry hrow)).1.mpr rfl
  -- Meanwhile the note gets another version.
  have hget : ∀ {s : Store} {version owner}, firstNote s = some (version, owner) →
      ∃ found, s.get note.key 1 = .ok (some found) ∧ found.version = version := fun h ↦ by
    obtain ⟨found, hfound, hversion, -⟩ := exists_firstNote h
    obtain ⟨n, hn, hfound⟩ := Store.get_of_rowAt hfound
    obtain rfl : 1 = n := Option.some.inj ((by decide : some 1 = Text.readInt64? "1").trans hn)
    exact ⟨found, hfound, hversion⟩
  obtain ⟨kept, hkept, hold⟩ := hget (Prod.mk.inj hversions).1
  obtain ⟨found, hfound, hnew⟩ := hget (Prod.mk.inj hversions).2
  obtain rfl : row = kept := Option.some.inj (Except.ok.inj (hrow.symm.trans hkept))
  obtain ⟨-, hstatus, hsame⟩ := hguards ⟨3, 0⟩ later late found hfirst (hmay hregistry' hfound)
  have hchanged : found.version ≠ row.version := by
    rw [hold, hnew]
    decide
  refine ⟨?_, hshown, ⟨row, hrow, hcurrent⟩, hstatus.mpr hchanged, hsame hchanged⟩
  let entries : List EntityTag.Entry :=
    [{ named := .tag true 4, after := [' '] }, { named := .tag false 1 }]
  have hentries : request.headers.first? "if-match" = some (EntityTag.listing entries) := by
    decide +kernel
  exact (hlisting request.headers entries (List.cons_ne_nil _ _) hentries 1).1.mpr
    ⟨_, List.mem_cons_of_mem _ (List.mem_singleton_self _), rfl⟩

/-- A note is created and replaced. Its deletion on the condition that it still has the tag of its
creation would be rejected as an update, and is carried out. -/
theorem deletion_ignores_tag :
    let service : Service := {}
    let created := service.respond ⟨0, 0⟩ (.new registry) (creating 7)
    let s := (service.respond ⟨1, 0⟩ created.2 (replacing 8 "*")).2
    let deletion := { deleting with headers := ("if-match", "\"1\"") :: editor }
    created.1.etag = some "\"1\"" ∧ firstNote s = some (2, some 8) ∧
      (EntityTag.check deletion.headers 2).toOption = none ∧
      (service.respond ⟨2, 0⟩ s deletion).1.status = 204 ∧
      firstNote (service.respond ⟨2, 0⟩ s deletion).2 = none := by
  decide +kernel

end Notes

end RowAccess

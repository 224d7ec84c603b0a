import RowAccess.Proofs.Evaluation.Links
import RowAccess.Proofs.Query.Detail
import RowAccess.Proofs.Visibility.Narrowing

/-!
# Rows that are not visible

What a requester reads of a model depends on its visible rows only. Every plan keeps visible rows
alone, so counting, ordering and cutting a window see no other ones (`selected_eq_of_showsSame`); a
detail request looks a row up first, but says the same of a row that is not visible and of one that
does not exist. What remains is the evaluation itself, which looks into other tables, and comes back
to the rows of the model only along a chain of relation fields.
-/

namespace RowAccess

/-- Tables with the same entries among those that pass a test have the same rows among those, in the
same order. -/
theorem Table.filter_rows_eq {t t' : Table} {test : Row → Bool}
    (h : ∀ id row, (t'.get? id = some row ∧ test row = true) ↔
      (t.get? id = some row ∧ test row = true)) : t'.rows.filter test = t.rows.filter test := by
  have hascending : ∀ t : Table,
      (t.entries.filter fun entry ↦ test entry.2).Pairwise fun a b ↦ a.1 < b.1 := fun t ↦
    (List.pairwise_map.mp t.ascending).filter _
  have hnodup : ∀ t : Table, (t.entries.filter fun entry ↦ test entry.2).Nodup := fun t ↦
    (hascending t).imp fun hlt e ↦ Int.ne_of_lt hlt (congrArg Prod.fst e)
  have hentries : (t'.entries.filter fun entry ↦ test entry.2)
      = t.entries.filter fun entry ↦ test entry.2 := by
    refine List.Perm.eq_of_pairwise (fun a b _ _ hlt hgt ↦ ?_) (hascending t') (hascending t) ?_
    · exact absurd hgt (Int.not_lt.mpr (Int.le_of_lt hlt))
    · rw [List.perm_ext_iff_of_nodup (hnodup t') (hnodup t)]
      rintro ⟨id, row⟩
      simp only [List.mem_filter, ← Table.get?_eq_some_iff]
      exact h id row
  have hrows : ∀ t : Table, t.rows.filter test
      = (t.entries.filter fun entry ↦ test entry.2).map Prod.snd := fun t ↦ by
    rw [rows, List.filter_map]
    rfl
  rw [hrows, hrows, hentries]

namespace Store

/-- The same rows of a model are visible in two stores. -/
def ShowsSame (s s' : Store) (m : Model) (visibility : Predicate) : Prop :=
  ∀ id row, (s'.get m.key id = .ok (some row) ∧ s'.holds m row visibility = true) ↔
    (s.get m.key id = .ok (some row) ∧ s.holds m row visibility = true)

section Hidden

variable {s s' : Store} {m : Model} {t t' : Table} {identity : Identity} {p : Parameters}
  {visibility : Predicate}

theorem ShowsSame.entries (h : s.ShowsSame s' m visibility) (hbeyond : s.AgreesBeyond s' m)
    (ht : s.table? m.key = some t) (ht' : s'.table? m.key = some t') (id : Int) (row : Row) :
    (t'.get? id = some row ∧ s.holds m row visibility = true) ↔
      (t.get? id = some row ∧ s.holds m row visibility = true) := by
  have hget : ∀ {s : Store} {t : Table}, s.table? m.key = some t →
      (s.get m.key id = .ok (some row) ↔ t.get? id = some row) := fun ht ↦ by
    rw [get_eq_ok_iff]
    simp only [ht, Option.some.injEq, exists_eq_left']
  have hrow := h id row
  rwa [hget ht, hget ht', hbeyond.holds_eq] at hrow

/-- A plan that keeps visible rows only selects the same rows in stores that show the same. -/
theorem selected_eq_of_showsSame (h : s.ShowsSame s' m visibility)
    (hbeyond : s.AgreesBeyond s' m) (hm : s.registry.get? m.key = some m) {plan : Plan}
    (hplan : ∀ row, plan.steps.all (s.keeps m row) = true → s.holds m row visibility = true) :
    s'.selected m.key plan = s.selected m.key plan := by
  have hm' : s'.registry.get? m.key = some m := hbeyond.registry ▸ hm
  obtain ⟨t, ht⟩ := exists_table hm
  obtain ⟨t', ht'⟩ := exists_table hm'
  have hkeeps : ∀ row, plan.steps.all (s'.keeps m row) = plan.steps.all (s.keeps m row) :=
    fun row ↦ congrArg plan.steps.all (funext fun step ↦ hbeyond.keeps_eq row step)
  have hvisible : ∀ rows : List Row, rows.filter (fun row ↦ plan.steps.all (s.keeps m row))
      = (rows.filter fun row ↦ s.holds m row visibility).filter
        fun row ↦ plan.steps.all (s.keeps m row) := fun rows ↦ by
    rw [List.filter_filter]
    refine List.filter_congr fun row _ ↦ ?_
    cases hkept : plan.steps.all (s.keeps m row) with
    | false => rfl
    | true => rw [hplan row hkept, Bool.and_self]
  rw [selected_eq hm' ht', selected_eq hm ht]
  simp only [hkeeps]
  rw [hvisible t'.rows, hvisible t.rows, Table.filter_rows_eq (h.entries hbeyond ht ht')]

/-- The answer to a list request does not depend on rows that are not visible. -/
theorem list_eq_of_showsSame
    (h : ∀ visibility, s.registry.visibleRows m identity p = .ok visibility →
      s.ShowsSame s' m visibility)
    (hbeyond : s.AgreesBeyond s' m) (hm : s.registry.get? m.key = some m) :
    s'.list m identity p = s.list m identity p := by
  rw [list, list, hbeyond.registry]
  refine Outcome.bind_congr fun _ _ ↦ Outcome.bind_congr fun plan hplan ↦ ?_
  obtain ⟨visibility, hvisible, rfl⟩ :=
    Registry.listPlan_eq_ok_iff.mp (Outcome.mapError_eq_ok_iff.mp hplan)
  have hselected : s'.selected m.key (s.registry.planUnder m p visibility)
      = s.selected m.key (s.registry.planUnder m p visibility) :=
    selected_eq_of_showsSame (h visibility hvisible) hbeyond hm fun row ↦
      Plan.holds_of_keeps_combine (Registry.strict_of_visibleRows hvisible)
  have hwindow : s'.listWindow m (s.registry.planUnder m p visibility) p
      = s.listWindow m (s.registry.planUnder m p visibility) p := by
    simp only [listWindow, orderedIds, hbeyond.registry, hselected]
  rw [hwindow]
  refine Outcome.bind_congr fun window _ ↦ ?_
  rw [select, select, hselected]

theorem addressed?_eq_of_showsSame (h : s.ShowsSame s' m visibility)
    (hbeyond : s.AgreesBeyond s' m) (ht : s.table? m.key = some t)
    (ht' : s'.table? m.key = some t') (id : String) :
    s'.addressed? m t' visibility id = s.addressed? m t visibility id := by
  rw [addressed?, addressed?]
  cases Text.readInt64? id with
  | none => rfl
  | some n =>
    refine Option.ext fun row ↦ ?_
    simp only [Option.bind_some, Option.filter_eq_some_iff, hbeyond.holds_eq]
    exact h.entries hbeyond ht ht' n row

end Hidden

end Store

/-- Reads do not depend on rows that are not visible. Let no chain of relation fields lead back to a
model, and let two stores have the same tables but for the one of the model, in which they have the
same rows among those that are visible to a request. Then a list request is answered the same in
both stores. If every row is stored with its id, so is a detail request whose requester is known and
may read the model; for a row that is not visible it is answered as for one that does not exist. -/
theorem Service.reads_ignore_hidden (service : Service) (s s' : Store) (app model : String)
    (m : Model) (headers : Headers) (pairs : List (String × String))
    (hregistry : s'.registry = s.registry) (hm : s.registry.get? ⟨app, model⟩ = some m)
    (hchain : ¬Relation.TransGen s.registry.LinksTo m m)
    (htables : ∀ key, key ≠ m.key → s'.table? key = s.table? key)
    (hvisible : ∀ identity visibility, service.identification.identify headers = .ok identity →
      s.registry.visibleRows m identity (.ofPairs pairs) = .ok visibility →
      s.ShowsSame s' m visibility) :
    service.listing s' app model headers pairs = service.listing s app model headers pairs ∧
      (s.KeepsIds → s'.KeepsIds → ∀ identity visibility,
        service.identification.identify headers = .ok identity →
        m.requireReading identity = .ok () →
        s.registry.visibleRows m identity (.ofPairs pairs) = .ok visibility → ∀ id,
          service.detailing s' app model id headers pairs
              = service.detailing s app model id headers pairs ∧
            ((∀ n row, Text.readInt64? id = some n → s.get m.key n = .ok (some row) →
                s.holds m row visibility = false) →
              service.detailing s app model id headers pairs = .ofFault (m.notFound id))) := by
  obtain ⟨-, hkey⟩ := (s.registry.get?_eq_some_iff _ m).mp hm
  have hm' : s'.registry.get? ⟨app, model⟩ = some m := hregistry ▸ hm
  have hregistered : s.registry.get? m.key = some m := hkey ▸ hm
  have hbeyond := Store.agreesBeyond_of_tables hregistry hchain hregistered htables
  constructor
  · have houtcome := Outcome.bind_congr (x := service.identification.identify headers)
      fun identity hidentity ↦ Store.list_eq_of_showsSame (p := .ofPairs pairs)
        (fun visibility ↦ hvisible identity visibility hidentity) hbeyond hregistered
    rw [listing_eq hm', listing_eq hm, houtcome]
  · intro hids hids' identity visibility hidentity hreading hvisibility id
    obtain ⟨t, ht⟩ := Store.exists_table hregistered
    obtain ⟨t', ht'⟩ := Store.exists_table (hregistry ▸ hregistered : s'.registry.get? m.key = _)
    have hdetail := detailing_eq hm ht hids hidentity hreading hvisibility id
    have hdetail' := detailing_eq hm' ht' hids' hidentity hreading (hregistry ▸ hvisibility) id
    have haddressed := Store.addressed?_eq_of_showsSame
      (hvisible identity visibility hidentity hvisibility) hbeyond ht ht' id
    refine ⟨by rw [hdetail', hdetail, haddressed], fun hhidden ↦ ?_⟩
    have hnone : s.addressed? m t visibility id = none := by
      rw [Store.addressed?, Option.filter_eq_none_iff]
      intro row hrow hholds
      obtain ⟨n, hn, hget⟩ := Option.bind_eq_some_iff.mp hrow
      have hstored : s.get m.key n = .ok (some row) := Store.get_eq_ok_iff.mpr ⟨t, ht, hget⟩
      exact absurd hholds (by rw [hhidden n row hn hstored]; exact Bool.false_ne_true)
    rw [hdetail, hnone]

namespace Notes

/-- A project with the member `7`. -/
def memberProject : List (Int × Row) :=
  [(1, .ofList [("id", .int 1), ("members", .array [.int 7])])]

/-- One project with the member `7`, and several notes. -/
def storeWith (notes : Table) : Store where
  registry := registry
  tables := [(project.key, ⟨memberProject, by decide⟩), (note.key, notes)]
  covers := rfl

theorem get_storeWith {notes : Table} {id : Int} {row : Row} :
    (storeWith notes).get note.key id = .ok (some row) ↔ (id, row) ∈ notes.entries := by
  rw [Store.get_eq_ok_iff, ← Table.get?_eq_some_iff]
  exact ⟨fun ⟨t, ht, hrow⟩ ↦ Option.some.inj ht ▸ hrow, fun hrow ↦ ⟨notes, rfl, hrow⟩⟩

theorem table?_storeWith (notes others : Table) {key : ModelKey} (h : key ≠ note.key) :
    (storeWith notes).table? key = (storeWith others).table? key := by
  rw [Store.table?, Store.table?, storeWith, storeWith]
  simp only [lookup_cons_eq_ite, if_neg h]

theorem keepsIds_storeWith {notes : Table}
    (h : ∀ entry ∈ notes.entries, entry.2.get? "id" = some (.int entry.1)) :
    (storeWith notes).KeepsIds := by
  intro key id row hrow
  by_cases hkey : key = note.key
  · exact h _ (get_storeWith.mp (hkey ▸ hrow))
  · obtain ⟨t, ht, hget⟩ := Store.get_eq_ok_iff.mp hrow
    rw [Store.table?, storeWith, lookup_cons_eq_ite, lookup_cons_eq_ite, if_neg hkey] at ht
    split at ht
    · rw [← Option.some.inj ht] at hget
      obtain ⟨rfl, rfl⟩ := Prod.mk.inj (List.mem_singleton.mp (Table.get?_eq_some_iff.mp hget))
      rfl
    · cases ht

/-- The notes that are visible to the user `7`. -/
def ownNotes : List (Int × Row) := [(1, noteOf 1 7 2), (2, noteOf 2 9 1)]

def otherNote : Int × Row := (3, noteOf 3 9 2)

def visibleStore : Store := storeWith ⟨ownNotes, by decide⟩

def fullStore : Store := storeWith ⟨ownNotes ++ [otherNote], by decide⟩

/-- No chain of relation fields leads from notes to notes: notes point at projects, and projects at
users, who are not registered. -/
theorem not_linksTo_note : ¬Relation.TransGen registry.LinksTo note note := by
  have hlinks : ∀ m ∈ [note, project], ∀ other, registry.LinksTo m other → other = project := by
    rintro m hm other ⟨name, spec, target, hfield, -, htarget, hother⟩
    have htargets : ∀ m ∈ [note, project], ∀ entry ∈ m.fields.entries,
        entry.2.target ∈ [none, some users, some project.key] := by decide +kernel
    have hentry := htargets m hm _ ((lookup_eq_some_iff_mem m.fields.nodup).mp hfield)
    obtain ⟨hmem, hkey⟩ := (registry.get?_eq_some_iff target other).mp hother
    rw [htarget, ← hkey] at hentry
    rcases List.mem_cons.mp hmem with rfl | hmem
    · rfl
    · rw [List.mem_singleton.mp hmem] at hentry
      exact absurd hentry (by decide)
  have hchain : ∀ other, Relation.TransGen registry.LinksTo note other → other = project := by
    intro other h
    induction h with
    | single hlink => exact hlinks note (by simp) _ hlink
    | tail _ hlink ih => exact hlinks project (by simp) _ (ih ▸ hlink)
  exact fun h ↦ absurd (congrArg Model.key (hchain note h)) (by decide)

def shown : Predicate := .mkAny [ownedRows note 7, memberRows project 7]

theorem showsSame_fullStore : visibleStore.ShowsSame fullStore note shown := by
  have hbeyond : visibleStore.AgreesBeyond fullStore note :=
    Store.agreesBeyond_of_tables rfl not_linksTo_note
      ((registry.get?_eq_some_iff _ _).mpr ⟨by simp [registry], rfl⟩)
      fun _ ↦ table?_storeWith _ _
  intro id row
  rw [fullStore, visibleStore, get_storeWith, get_storeWith, ← fullStore, ← visibleStore,
    hbeyond.holds_eq]
  refine and_congr_left fun hvisible ↦ ?_
  rw [List.mem_append, List.mem_singleton]
  refine or_iff_left fun e ↦ ?_
  obtain ⟨-, rfl⟩ := Prod.mk.inj e
  exact absurd hvisible (by decide +kernel)

/-- The user `7` reads the same of the notes, whether there is a note of another project or not. -/
theorem reads_ignore_other_note :
    let headers : Headers := [("x-user-id", "7")]
    let pairs := [("project__id", "1")]
    Service.listing {} fullStore "core" "note" headers pairs
        = Service.listing {} visibleStore "core" "note" headers pairs ∧
      Service.detailing {} fullStore "core" "note" "3" headers pairs
        = Service.detailing {} visibleStore "core" "note" "3" headers pairs := by
  intro headers pairs
  have hnote : registry.get? ⟨"core", "note"⟩ = some note :=
    (registry.get?_eq_some_iff _ _).mpr ⟨by simp [registry], rfl⟩
  obtain ⟨identity, hidentity, huser⟩ := Outcome.toOption_map_eq_some_iff.mp
    (by decide +kernel : (({} : Service).identification.identify headers).toOption.map id
      = some (.user ⟨7, "7", none, [], []⟩))
  obtain rfl := huser
  have hvisible : registry.visibleRows note (.user ⟨7, "7", none, [], []⟩) (.ofPairs pairs)
      = .ok shown := rfl
  obtain ⟨hlisting, hdetailing⟩ := Service.reads_ignore_hidden {} visibleStore fullStore "core"
    "note" note headers pairs rfl hnote not_linksTo_note (fun _ ↦ table?_storeWith _ _)
    fun identity visibility hi hv ↦ by
      obtain rfl := Except.ok.inj (hidentity.symm.trans hi)
      obtain rfl := Except.ok.inj (hvisible.symm.trans hv)
      exact showsSame_fullStore
  have hids : visibleStore.KeepsIds := keepsIds_storeWith
    (List.forall_mem_cons.mpr ⟨rfl, List.forall_mem_singleton.mpr rfl⟩)
  have hids' : fullStore.KeepsIds := keepsIds_storeWith
    (List.forall_mem_cons.mpr ⟨rfl, List.forall_mem_cons.mpr
      ⟨rfl, List.forall_mem_singleton.mpr rfl⟩⟩)
  exact ⟨hlisting, (hdetailing hids hids' _ shown hidentity rfl hvisible "3").1⟩

end Notes

end RowAccess

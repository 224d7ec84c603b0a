import RowAccess.Proofs.Query.Parameters
import RowAccess.Proofs.Schema.Validity
import RowAccess.Proofs.Visibility.Grounds

/-!
# The tier table

The tiers are documented by a table: for every tier and every kind of requester either a denial or
the grounds on which a row is shown. Here the table is written over stored rows, with no predicate
in sight, and shown to be what the visibility of a request selects.

The table speaks of relations by their names, so a model has to declare what its tier reads in a
form that a predicate can address (`Registry.SuitsTier`). Everything else that the argument needs
is checked when the schema is loaded.
-/

namespace RowAccess

/-! ## Selecting a project -/

/-- Whether a key of a query selects a project. -/
def Settings.acceptsSelector (settings : Settings) (key : String) : Bool :=
  key == "project__id" || (key == "project" && settings.acceptBareProjectSelector)

theorem Registry.selectsProject_ofPairs (r : Registry) (pairs : List (String × String)) :
    r.selectsProject (.ofPairs pairs)
      = pairs.any fun pair ↦ r.settings.acceptsSelector pair.1 := by
  rw [selectsProject, Parameters.selectsProject, Parameters.selectsProjectBare,
    Parameters.contains_ofPairs, Parameters.contains_ofPairs]
  induction pairs with
  | nil => rfl
  | cons pair rest ih =>
    rw [List.any_cons, List.any_cons, List.any_cons, ← ih, Settings.acceptsSelector,
      BEq.comm (a := "project__id"), BEq.comm (a := "project")]
    cases pair.1 == "project__id" <;> cases pair.1 == "project" <;>
      cases r.settings.acceptBareProjectSelector <;> simp

/-! ## The table -/

/-- What the tier of a model grants a requester, who may have selected a project: a denial, or
which rows are shown. -/
def Store.tierTable (s : Store) (m : Model) (identity : Identity) (selected : Bool) :
    Except AccessDenial (Row → Bool) :=
  let superuser := identity.isSuperuserOf m.key.app
  match m.tier, identity.userId? with
  | .public, _ => .ok fun _ ↦ true
  | .loggedIn, none => .error .authenticationRequired
  | .loggedIn, some _ => .ok fun _ ↦ true
  | .publicOrProject, none => .ok Row.isPublic
  | .publicOrProject, some user =>
    .ok fun row ↦ superuser || row.isPublic || (selected && s.hasMember m user row)
  | .project, none => .error .authenticationRequired
  | .project, some user =>
    if selected then .ok fun row ↦ superuser || s.hasMember m user row
    else .error .projectSelectorRequired
  | .projectOrUser, none => .error .authenticationRequired
  | .projectOrUser, some user =>
    if selected then .ok fun row ↦ superuser || m.owns user row || s.hasMember m user row
    else .error .projectSelectorRequired
  | .publicOrUser, none => .ok Row.isPublic
  | .publicOrUser, some user => .ok fun row ↦ superuser || row.isPublic || m.owns user row
  | .private, none => .error .authenticationRequired
  | .private, some user => .ok fun row ↦ superuser || m.owns user row

/-! ## What a tier reads -/

namespace Registry

variable {r : Registry} {m : Model}

/-- The owner field of a model is a relation and its projects are the rows of its project model, and
the names that paths are made of stand for themselves; each as far as the tier reads it. -/
structure SuitsTier (r : Registry) (m : Model) : Prop where
  owner : m.tier.readsOwner = true → m.hasRelation m.ownerField = true ∧ IsSegment m.ownerField
  project : m.tier.needsProject = true →
    (m.field? "project").bind FieldSpec.target = some m.projectKey ∧
      r.isIdentity m.projectKey = false
  users : m.tier.needsProject = true → ∀ project, r.get? m.projectKey = some project →
    ∀ field ∈ project.userFields, IsSegment field

theorem Accepts.hasFlag (h : r.Accepts m)
    (htier : m.tier = .publicOrProject ∨ m.tier = .publicOrUser) : m.hasFlag "public" = true := by
  have hcheck := h.tier
  rw [checkTier] at hcheck
  rcases htier with htier | htier <;> rw [htier] at hcheck <;> dsimp only at hcheck
  · rw [Outcome.ite_ok_iff, Bool.and_eq_true, Bool.and_eq_true] at hcheck
    exact hcheck.1.1
  · rwa [Outcome.ite_ok_iff] at hcheck

theorem Accepts.hasRelation (h : r.Accepts m) (htier : m.tier.needsProject = true) :
    m.hasRelation "project" = true := by
  have hcheck := h.tier
  rw [checkTier] at hcheck
  cases hm : m.tier <;> rw [hm] at hcheck htier <;> dsimp only at hcheck
  case publicOrProject =>
    rw [Outcome.ite_ok_iff, Bool.and_eq_true, Bool.and_eq_true] at hcheck
    exact hcheck.1.2
  case project | projectOrUser =>
    rw [Outcome.ite_ok_iff, Bool.and_eq_true] at hcheck
    exact hcheck.1
  all_goals exact absurd htier (by decide)

/-- In a consistent registry the members of projects can be reached. -/
theorem exists_reachesMembers (hvalid : r.validate = .ok ()) (hm : m ∈ r.models)
    (hsuits : r.SuitsTier m) (htier : m.tier.needsProject = true) :
    ∃ project, r.ReachesMembers m project := by
  have haccepts := validate_eq_ok_iff.mp hvalid
  obtain ⟨project, hproject, -⟩ := (haccepts m hm).project htier
  have husers := (haccepts project ((r.get?_eq_some_iff _ _).mp hproject).1).users
  exact ⟨project, {
    relation := (haccepts m hm).hasRelation htier
    target := (hsuits.project htier).1
    notIdentity := (hsuits.project htier).2
    registered := hproject
    users := fun field hfield ↦
      ⟨husers field hfield, hsuits.users htier project hproject field hfield⟩ }⟩

end Registry

/-! ## The table and the visibility -/

/-- The outcome of a visibility is what the table has: the same denial, or a predicate that holds of
the granted rows. -/
def Store.Agrees (s : Store) (m : Model) (outcome : Except AccessDenial Predicate) :
    Except AccessDenial (Row → Bool) → Prop
  | .error denial => outcome = .error denial
  | .ok granted => ∃ visibility, outcome = .ok visibility ∧
      ∀ row, s.holds m row visibility = granted row

namespace Store

variable {s : Store} {m : Model}

theorem agrees_always {granted : Row → Bool} (h : ∀ row, granted row = true) :
    s.Agrees m (.ok .always) (.ok granted) :=
  ⟨.always, rfl, fun row ↦ s.holds_always.trans (h row).symm⟩

theorem requireProject_eq {project : Model} (h : s.registry.ReachesMembers m project) (code : Nat) :
    s.registry.requireProject m code = .ok project := by
  rw [Registry.requireProject, h.registered]

section Tiers

variable (hvalid : s.registry.validate = .ok ()) (hm : m ∈ s.registry.models)
  (hsuits : s.registry.SuitsTier m) (identity : Identity) (p : Parameters)

include hvalid hm hsuits

theorem agrees_publicOrProject (htier : m.tier = .publicOrProject) :
    s.Agrees m (s.registry.visibleRows m identity p)
      (s.tierTable m identity (s.registry.selectsProject p)) := by
  have haccepts := Registry.validate_eq_ok_iff.mp hvalid m hm
  have hflag := haccepts.hasFlag (.inl htier)
  obtain ⟨project, hmembers⟩ := Registry.exists_reachesMembers hvalid hm hsuits (by rw [htier]; rfl)
  simp only [tierTable, Registry.visibleRows, htier, haccepts.tier]
  cases identity with
  | anonymous => exact ⟨publicRows, rfl, fun row ↦ s.holds_publicRows hflag⟩
  | user u =>
    cases (Identity.user u).isSuperuserOf m.key.app with
    | true => exact agrees_always fun row ↦ rfl
    | false =>
      cases s.registry.selectsProject p with
      | false =>
        refine ⟨publicRows, rfl, fun row ↦ ?_⟩
        simp only [s.holds_publicRows hflag, Bool.false_or, Bool.false_and, Bool.or_false]
      | true =>
        refine ⟨.mkAny [publicRows, memberRows project u.id], ?_, fun row ↦ ?_⟩
        · simp only [requireProject_eq hmembers]
          rfl
        · rw [s.holds_mkAny_pair isDisjunction_publicRows (isDisjunction_memberRows project u.id),
            s.holds_publicRows hflag, holds_memberRows hmembers]
          simp only [Bool.false_or, Bool.true_and]

theorem agrees_project (htier : m.tier = .project) :
    s.Agrees m (s.registry.visibleRows m identity p)
      (s.tierTable m identity (s.registry.selectsProject p)) := by
  have haccepts := Registry.validate_eq_ok_iff.mp hvalid m hm
  obtain ⟨project, hmembers⟩ := Registry.exists_reachesMembers hvalid hm hsuits (by rw [htier]; rfl)
  simp only [tierTable, Registry.visibleRows, htier, haccepts.tier]
  cases identity with
  | anonymous => rfl
  | user u =>
    -- A project has to be selected before a superuser is told apart.
    cases s.registry.selectsProject p with
    | false => rfl
    | true =>
      cases (Identity.user u).isSuperuserOf m.key.app with
      | true => exact agrees_always fun row ↦ rfl
      | false =>
        refine ⟨memberRows project u.id, ?_, fun row ↦ ?_⟩
        · simp only [requireProject_eq hmembers]
          rfl
        · exact (holds_memberRows hmembers).trans (Bool.false_or _).symm

theorem agrees_projectOrUser (htier : m.tier = .projectOrUser) :
    s.Agrees m (s.registry.visibleRows m identity p)
      (s.tierTable m identity (s.registry.selectsProject p)) := by
  have haccepts := Registry.validate_eq_ok_iff.mp hvalid m hm
  obtain ⟨howner, hsegment⟩ := hsuits.owner (by rw [htier]; rfl)
  obtain ⟨project, hmembers⟩ := Registry.exists_reachesMembers hvalid hm hsuits (by rw [htier]; rfl)
  simp only [tierTable, Registry.visibleRows, htier, haccepts.tier]
  cases identity with
  | anonymous => rfl
  | user u =>
    cases s.registry.selectsProject p with
    | false => rfl
    | true =>
      cases (Identity.user u).isSuperuserOf m.key.app with
      | true => exact agrees_always fun row ↦ rfl
      | false =>
        refine ⟨.mkAny [ownedRows m u.id, memberRows project u.id], ?_, fun row ↦ ?_⟩
        · simp only [requireProject_eq hmembers]
          rfl
        · rw [s.holds_mkAny_pair (isDisjunction_ownedRows m u.id)
            (isDisjunction_memberRows project u.id), s.holds_ownedRows howner hsegment,
            holds_memberRows hmembers]
          exact congrArg (· || _) (Bool.false_or _).symm

theorem agrees_publicOrUser (htier : m.tier = .publicOrUser) :
    s.Agrees m (s.registry.visibleRows m identity p)
      (s.tierTable m identity (s.registry.selectsProject p)) := by
  have haccepts := Registry.validate_eq_ok_iff.mp hvalid m hm
  have hflag := haccepts.hasFlag (.inr htier)
  obtain ⟨howner, hsegment⟩ := hsuits.owner (by rw [htier]; rfl)
  simp only [tierTable, Registry.visibleRows, htier, haccepts.tier]
  cases identity with
  | anonymous => exact ⟨publicRows, rfl, fun row ↦ s.holds_publicRows hflag⟩
  | user u =>
    cases (Identity.user u).isSuperuserOf m.key.app with
    | true => exact agrees_always fun row ↦ rfl
    | false =>
      refine ⟨.mkAny [publicRows, ownedRows m u.id], rfl, fun row ↦ ?_⟩
      rw [s.holds_mkAny_pair isDisjunction_publicRows (isDisjunction_ownedRows m u.id),
        s.holds_publicRows hflag, s.holds_ownedRows howner hsegment]
      simp only [Bool.false_or]

omit hvalid hm in
theorem agrees_private (htier : m.tier = .private) :
    s.Agrees m (s.registry.visibleRows m identity p)
      (s.tierTable m identity (s.registry.selectsProject p)) := by
  obtain ⟨howner, hsegment⟩ := hsuits.owner (by rw [htier]; rfl)
  simp only [tierTable, Registry.visibleRows, htier]
  cases identity with
  | anonymous => rfl
  | user u =>
    cases (Identity.user u).isSuperuserOf m.key.app with
    | true => exact agrees_always fun row ↦ rfl
    | false =>
      exact ⟨ownedRows m u.id, rfl, fun row ↦
        (s.holds_ownedRows howner hsegment u.id).trans (Bool.false_or _).symm⟩

/-- The visibility of a request denies what the table denies, and otherwise holds of the rows that
the table grants. -/
theorem agrees_visibleRows :
    s.Agrees m (s.registry.visibleRows m identity p)
      (s.tierTable m identity (s.registry.selectsProject p)) := by
  cases htier : m.tier with
  | «public» =>
    simp only [tierTable, Registry.visibleRows, htier]
    exact agrees_always fun row ↦ rfl
  | loggedIn =>
    simp only [tierTable, Registry.visibleRows, htier]
    cases identity with
    | anonymous => rfl
    | user u => exact agrees_always fun row ↦ rfl
  | publicOrProject => exact agrees_publicOrProject hvalid hm hsuits identity p htier
  | project => exact agrees_project hvalid hm hsuits identity p htier
  | projectOrUser => exact agrees_projectOrUser hvalid hm hsuits identity p htier
  | publicOrUser => exact agrees_publicOrUser hvalid hm hsuits identity p htier
  | «private» => exact agrees_private hsuits identity p htier

end Tiers

/-- In a consistent registry, a request for a model that declares what its tier reads is denied
exactly if the tier table denies it, and otherwise its visibility selects exactly the rows that the
table grants. -/
theorem select_visibleRows_eq_tierTable (s : Store) (m : Model)
    (hvalid : s.registry.validate = .ok ()) (hm : m ∈ s.registry.models)
    (hsuits : s.registry.SuitsTier m) (identity : Identity) (pairs : List (String × String)) :
    let outcome := s.registry.visibleRows m identity (.ofPairs pairs)
    let table := s.tierTable m identity
      (pairs.any fun pair ↦ s.registry.settings.acceptsSelector pair.1)
    (∀ denial, outcome = .error denial ↔ table = .error denial) ∧
      ∀ granted, table = .ok granted → ∃ visibility t page, outcome = .ok visibility ∧
        s.table? m.key = some t ∧ s.select m.key (.matching visibility) {} = .ok page ∧
        page.rows.Perm (t.rows.filter granted) ∧ page.count = page.rows.length := by
  intro outcome table
  have hagrees : s.Agrees m outcome table := by
    have := agrees_visibleRows hvalid hm hsuits identity (.ofPairs pairs)
    rwa [Registry.selectsProject_ofPairs] at this
  cases htable : table with
  | error denial =>
    have houtcome : outcome = .error denial := by rwa [htable] at hagrees
    rw [houtcome]
    exact ⟨fun other ↦ by simp, nofun⟩
  | ok granted =>
    obtain ⟨visibility, houtcome, hholds⟩ : ∃ visibility, outcome = .ok visibility ∧
        ∀ row, s.holds m row visibility = granted row := by rwa [htable] at hagrees
    rw [houtcome]
    refine ⟨fun denial ↦ ⟨nofun, nofun⟩, fun granted' hgranted ↦ ?_⟩
    cases hgranted
    have hregistered := (s.registry.get?_eq_some_iff m.key m).mpr ⟨hm, rfl⟩
    obtain ⟨t, ht⟩ := exists_table hregistered
    obtain ⟨page, hpage, hrows, hcount⟩ := select_matching hregistered ht visibility
    simp only [hholds] at hrows
    exact ⟨visibility, t, page, rfl, ht, hpage, hrows, hcount⟩

end Store

/-! ## A service of notes -/

namespace Notes

def users : ModelKey := ⟨"auth", "user"⟩

/-- Projects with their members. -/
def project : Model where
  key := ⟨"core", "project"⟩
  tier := .loggedIn
  fields := implicitFields.insertAll [("members", ⟨.manyToMany, some users⟩)]
  userFields := ["members"]

/-- Notes, each with an owner and a project. -/
def note : Model where
  key := ⟨"core", "note"⟩
  tier := .projectOrUser
  fields := implicitFields.insertAll
    [("owner", ⟨.foreignKey, some users⟩), ("project", ⟨.foreignKey, some project.key⟩)]
  ownerField := "owner"

/-- The registry of the sample service. -/
def registry : Registry where
  settings := {}
  identityModel := users
  models := [project, note]
  distinct := by decide

def noteOf (id owner project : Int) : Row :=
  .ofList [("id", .int id), ("owner", .int owner), ("project", .int project)]

/-- One project with the member `7`, and three notes. -/
def store : Store where
  registry := registry
  tables := [
    (project.key, ⟨[(1, .ofList [("id", .int 1), ("members", .array [.int 7])])], by decide⟩),
    (note.key, ⟨[(1, noteOf 1 7 2), (2, noteOf 2 9 1), (3, noteOf 3 9 2)], by decide⟩)]
  covers := rfl

theorem validate_registry : registry.validate = .ok () := rfl

theorem suitsTier_note : registry.SuitsTier note where
  owner _ := ⟨by decide +kernel, by rw [IsSegment]; decide +kernel⟩
  project _ := ⟨by decide +kernel, by decide +kernel⟩
  users _ m hm field hfield := by
    have hproject : registry.get? note.projectKey = some project :=
      (registry.get?_eq_some_iff _ _).mpr ⟨by simp [registry], rfl⟩
    rw [← Option.some.inj (hproject.symm.trans hm)] at hfield
    rw [List.mem_singleton.mp hfield, IsSegment]
    decide +kernel

/-- The user `7` is shown the note they own and the note of their project. -/
theorem select_notes_of_member :
    ∃ visibility page,
      registry.visibleRows note (.user ⟨7, "ada", none, [], []⟩) (.ofPairs [("project__id", "1")])
        = .ok visibility ∧
      store.select note.key (.matching visibility) {} = .ok page ∧
      page.rows.Perm [noteOf 1 7 2, noteOf 2 9 1] := by
  obtain ⟨-, hselect⟩ := store.select_visibleRows_eq_tierTable note validate_registry
    (by simp [store, registry]) suitsTier_note (.user ⟨7, "ada", none, [], []⟩)
    [("project__id", "1")]
  obtain ⟨visibility, t, page, houtcome, ht, hpage, hrows, -⟩ := hselect _ rfl
  have htable : t = ⟨[(1, noteOf 1 7 2), (2, noteOf 2 9 1), (3, noteOf 3 9 2)], by decide⟩ :=
    Option.some.inj (ht.symm.trans rfl)
  subst htable
  exact ⟨visibility, page, houtcome, hpage, hrows⟩

end Notes

end RowAccess

import RowAccess.Proofs.Visibility.TierTable

/-!
# Outcomes of a visibility

A model that was accepted into its registry leaves three outcomes to a request: the requester has to
be known, a project has to be selected, or there is a visibility. What a visibility is made of is
listed once, as the conditions that are a ground (`Registry.IsGround`): the public flag, the owner
field, and the fields of the project model that name its members, each as far as the tier reads it.
All conditions of all visibilities are grounds, and every ground is a condition of some visibility.
-/

namespace RowAccess

namespace Registry

/-- The conditions on which the tier of a model may show a row. -/
inductive IsGround (r : Registry) (m : Model) : Condition → Prop
  | isPublic (tier : m.tier = .publicOrProject ∨ m.tier = .publicOrUser) :
    IsGround r m ⟨"public", .exact, .bool true⟩
  | owned (tier : m.tier.readsOwner = true) (user : Int) :
    IsGround r m ⟨m.ownerField, .exact, .int user⟩
  | member (tier : m.tier.needsProject = true) {project : Model}
    (registered : r.get? m.projectKey = some project) {field : String}
    (declared : field ∈ project.userFields) (user : Int) :
    IsGround r m ⟨joinPath ["project", field], .exact, .int user⟩

variable {r : Registry} {m project : Model}

/-! ## Conditions of the grounds -/

theorem conditions_publicRows : publicRows.conditions = [⟨"public", .exact, .bool true⟩] := rfl

theorem conditions_ownedRows (m : Model) (user : Int) :
    (ownedRows m user).conditions = [⟨m.ownerField, .exact, .int user⟩] := rfl

theorem conditions_memberRows (project : Model) (user : Int) :
    (memberRows project user).conditions
      = project.userFields.map fun field ↦ ⟨joinPath ["project", field], .exact, .int user⟩ := by
  rw [memberRows, Predicate.conditions_mkAny fun part hpart ↦ by
    obtain ⟨field, -, rfl⟩ := List.mem_map.mp hpart
    rfl, List.flatMap_map]
  exact List.map_eq_flatMap.symm

theorem mem_conditions_pair {p q : Predicate} (hp : p.IsDisjunction) (hq : q.IsDisjunction)
    {c : Condition} :
    c ∈ (Predicate.mkAny [p, q]).conditions ↔ c ∈ p.conditions ∨ c ∈ q.conditions := by
  have hparts : ∀ part ∈ [p, q], part.isAlways = false :=
    List.forall_mem_cons.mpr
      ⟨hp.isAlways_eq_false, List.forall_mem_singleton.mpr hq.isAlways_eq_false⟩
  rw [Predicate.conditions_mkAny hparts, List.flatMap_cons, List.flatMap_singleton,
    List.mem_append]

theorem isGround_of_publicRows (htier : m.tier = .publicOrProject ∨ m.tier = .publicOrUser)
    {c : Condition} (hc : c ∈ publicRows.conditions) : r.IsGround m c := by
  rw [conditions_publicRows, List.mem_singleton] at hc
  exact hc ▸ .isPublic htier

theorem isGround_of_ownedRows (htier : m.tier.readsOwner = true) {user : Int} {c : Condition}
    (hc : c ∈ (ownedRows m user).conditions) : r.IsGround m c := by
  rw [conditions_ownedRows, List.mem_singleton] at hc
  exact hc ▸ .owned htier user

theorem isGround_of_memberRows (htier : m.tier.needsProject = true)
    (hproject : r.get? m.projectKey = some project) {user : Int} {c : Condition}
    (hc : c ∈ (memberRows project user).conditions) : r.IsGround m c := by
  rw [conditions_memberRows] at hc
  obtain ⟨field, hfield, rfl⟩ := List.mem_map.mp hc
  exact .member htier hproject hfield user

/-! ## The outcomes -/

/-- An outcome that is left to requests on accepted models: the requester or a project is missing,
or there is a visibility, all of whose conditions are grounds. -/
inductive IsOutcome (r : Registry) (m : Model) : Except AccessDenial Predicate → Prop
  | unknownRequester : IsOutcome r m (.error .authenticationRequired)
  | noProject : IsOutcome r m (.error .projectSelectorRequired)
  | visible {visibility : Predicate} (grounds : ∀ c ∈ visibility.conditions, r.IsGround m c) :
    IsOutcome r m (.ok visibility)

theorem isOutcome_always : r.IsOutcome m (.ok .always) :=
  .visible fun _ hc ↦ absurd hc List.not_mem_nil

theorem isOutcome_publicRows (htier : m.tier = .publicOrProject ∨ m.tier = .publicOrUser) :
    r.IsOutcome m (.ok publicRows) :=
  .visible fun _ ↦ isGround_of_publicRows htier

theorem isOutcome_memberRows (htier : m.tier.needsProject = true)
    (hproject : r.get? m.projectKey = some project) (user : Int) :
    r.IsOutcome m (.ok (memberRows project user)) :=
  .visible fun _ ↦ isGround_of_memberRows htier hproject

theorem isOutcome_ownedRows (htier : m.tier.readsOwner = true) (user : Int) :
    r.IsOutcome m (.ok (ownedRows m user)) :=
  .visible fun _ ↦ isGround_of_ownedRows htier

theorem isOutcome_pair {p q : Predicate} (hp : p.IsDisjunction) (hq : q.IsDisjunction)
    (hfirst : r.IsOutcome m (.ok p)) (hsecond : r.IsOutcome m (.ok q)) :
    r.IsOutcome m (.ok (.mkAny [p, q])) := by
  cases hfirst with
  | visible hpgrounds =>
    cases hsecond with
    | visible hqgrounds =>
      refine .visible fun c hc ↦ ?_
      rcases (mem_conditions_pair hp hq).mp hc with hc | hc
      · exact hpgrounds c hc
      · exact hqgrounds c hc

/-- A request on an accepted model has one of the outcomes. -/
theorem Accepts.isOutcome (h : r.Accepts m) (identity : Identity) (p : Parameters) :
    r.IsOutcome m (r.visibleRows m identity p) := by
  rw [visibleRows]
  cases htier : m.tier <;> simp only [h.tier]
  case «public» => exact isOutcome_always
  case loggedIn =>
    cases identity with
    | anonymous => exact .unknownRequester
    | user u => exact isOutcome_always
  case publicOrProject =>
    obtain ⟨project, hproject, -⟩ := h.project (by rw [htier]; rfl)
    cases identity with
    | anonymous => exact isOutcome_publicRows (.inl htier)
    | user u =>
      cases (Identity.user u).isSuperuserOf m.key.app with
      | true => exact isOutcome_always
      | false =>
        cases r.selectsProject p with
        | false => exact isOutcome_publicRows (.inl htier)
        | true =>
          simp only [requireProject, hproject]
          exact isOutcome_pair isDisjunction_publicRows (isDisjunction_memberRows project u.id)
            (isOutcome_publicRows (.inl htier))
            (isOutcome_memberRows (by rw [htier]; rfl) hproject u.id)
  case project =>
    obtain ⟨project, hproject, -⟩ := h.project (by rw [htier]; rfl)
    cases identity with
    | anonymous => exact .unknownRequester
    | user u =>
      cases r.selectsProject p with
      | false => exact .noProject
      | true =>
        cases (Identity.user u).isSuperuserOf m.key.app with
        | true => exact isOutcome_always
        | false =>
          simp only [requireProject, hproject]
          exact isOutcome_memberRows (by rw [htier]; rfl) hproject u.id
  case projectOrUser =>
    obtain ⟨project, hproject, -⟩ := h.project (by rw [htier]; rfl)
    cases identity with
    | anonymous => exact .unknownRequester
    | user u =>
      cases r.selectsProject p with
      | false => exact .noProject
      | true =>
        cases (Identity.user u).isSuperuserOf m.key.app with
        | true => exact isOutcome_always
        | false =>
          simp only [requireProject, hproject]
          exact isOutcome_pair (isDisjunction_ownedRows m u.id)
            (isDisjunction_memberRows project u.id)
            (isOutcome_ownedRows (by rw [htier]; rfl) u.id)
            (isOutcome_memberRows (by rw [htier]; rfl) hproject u.id)
  case publicOrUser =>
    cases identity with
    | anonymous => exact isOutcome_publicRows (.inr htier)
    | user u =>
      cases (Identity.user u).isSuperuserOf m.key.app with
      | true => exact isOutcome_always
      | false =>
        exact isOutcome_pair isDisjunction_publicRows (isDisjunction_ownedRows m u.id)
          (isOutcome_publicRows (.inr htier)) (isOutcome_ownedRows (by rw [htier]; rfl) u.id)
  case «private» =>
    cases identity with
    | anonymous => exact .unknownRequester
    | user u =>
      cases (Identity.user u).isSuperuserOf m.key.app with
      | true => exact isOutcome_always
      | false => exact isOutcome_ownedRows (by rw [htier]; rfl) u.id

/-! ## Every ground is used -/

def plainUser (user : Int) : Identity := .user ⟨user, "", none, [], []⟩

/-- The query of a request that selects a project. -/
def selecting : List (String × String) := [("project__id", "1")]

theorem selectsProject_selecting (r : Registry) :
    r.selectsProject (.ofPairs selecting) = true := by
  rw [selectsProject_ofPairs]
  simp [selecting, Settings.acceptsSelector]

theorem isSuperuserOf_plainUser (user : Int) (app : String) :
    (plainUser user).isSuperuserOf app = false := rfl

/-- Every ground is a condition of some visibility. -/
theorem Accepts.exists_visibility (h : r.Accepts m) {c : Condition} (hc : r.IsGround m c) :
    ∃ identity pairs visibility, r.visibleRows m identity (.ofPairs pairs) = .ok visibility ∧
      c ∈ visibility.conditions := by
  cases hc with
  | isPublic htier =>
    refine ⟨.anonymous, [], publicRows, ?_, List.mem_singleton_self _⟩
    rw [visibleRows]
    rcases htier with htier | htier <;> simp only [htier, h.tier] <;> rfl
  | owned htier user =>
    -- The owner is compared with a user who is no superuser.
    have howned : (⟨m.ownerField, .exact, .int user⟩ : Condition)
        ∈ (ownedRows m user).conditions := List.mem_singleton_self _
    refine ⟨plainUser user, selecting, ?_⟩
    rw [visibleRows]
    cases hm : m.tier <;> rw [hm] at htier
    case projectOrUser =>
      obtain ⟨project, hproject, -⟩ := h.project (by rw [hm]; rfl)
      simp only [h.tier, selectsProject_selecting, isSuperuserOf_plainUser, requireProject,
        hproject]
      exact ⟨_, rfl, (mem_conditions_pair (isDisjunction_ownedRows m user)
        (isDisjunction_memberRows project user)).mpr (.inl howned)⟩
    case publicOrUser =>
      simp only [h.tier, isSuperuserOf_plainUser]
      exact ⟨_, rfl, (mem_conditions_pair isDisjunction_publicRows
        (isDisjunction_ownedRows m user)).mpr (.inr howned)⟩
    case «private» => exact ⟨_, rfl, howned⟩
    all_goals exact absurd htier (by decide)
  | @member htier project hproject field hfield user =>
    have hmember : (⟨joinPath ["project", field], .exact, .int user⟩ : Condition)
        ∈ (memberRows project user).conditions := by
      rw [conditions_memberRows]
      exact List.mem_map.mpr ⟨field, hfield, rfl⟩
    refine ⟨plainUser user, selecting, ?_⟩
    rw [visibleRows]
    cases hm : m.tier <;> rw [hm] at htier
    case publicOrProject =>
      simp only [h.tier, selectsProject_selecting, isSuperuserOf_plainUser, requireProject,
        hproject]
      exact ⟨_, rfl, (mem_conditions_pair isDisjunction_publicRows
        (isDisjunction_memberRows project user)).mpr (.inr hmember)⟩
    case project =>
      simp only [h.tier, selectsProject_selecting, isSuperuserOf_plainUser, requireProject,
        hproject]
      exact ⟨_, rfl, hmember⟩
    case projectOrUser =>
      simp only [h.tier, selectsProject_selecting, isSuperuserOf_plainUser, requireProject,
        hproject]
      exact ⟨_, rfl, (mem_conditions_pair (isDisjunction_ownedRows m user)
        (isDisjunction_memberRows project user)).mpr (.inr hmember)⟩
    all_goals exact absurd htier (by decide)

end Registry

end RowAccess

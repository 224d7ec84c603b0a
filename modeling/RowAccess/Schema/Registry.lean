import RowAccess.Schema.Model

/-!
# The registry of models

All models a service exposes, in the order of their declaration, with the settings that apply to
every request. The identity model stands for the users themselves: it need not be registered, and
filters see nothing of it but its `id`.
-/

namespace RowAccess

/-- Settings that apply to every request. -/
structure Settings where
  /-- The model of users, as `app.model`. -/
  identityModel : String := "auth.user"
  /-- Whether a bare `project` parameter selects a project. -/
  acceptBareProjectSelector : Bool := true
  /-- The page size of a list request that asks for none; without it lists are not paged. -/
  defaultPageSize : Option Nat := none
  /-- The bound of every page size. -/
  maxPageSize : Option Nat := none
  deriving DecidableEq, Repr

namespace Settings

/-- The page size of a request: what it asks for or else the default, within the bound. -/
def pageSize (s : Settings) (requested : Option Nat) : Option Nat :=
  (requested.or s.defaultPageSize).map fun size ↦
    match s.maxPageSize with
    | some bound => min size bound
    | none => size

end Settings

/-- The models of a service, no two of which have the same key. -/
structure Registry where
  settings : Settings
  identityModel : ModelKey
  models : List Model
  distinct : (models.map Model.key).Nodup

namespace Registry

/-- A registry without models. A bare identity model belongs to the app `auth`. -/
def new (settings : Settings) : Except SchemaFault Registry := do
  let identityModel ← ModelKey.parse settings.identityModel "auth"
  return { settings, identityModel, models := [], distinct := .nil }

def get? (r : Registry) (key : ModelKey) : Option Model :=
  r.models.find? fun m ↦ m.key == key

def contains (r : Registry) (key : ModelKey) : Bool := (r.get? key).isSome

theorem contains_iff (r : Registry) (key : ModelKey) :
    r.contains key = true ↔ key ∈ r.models.map Model.key := by
  rw [contains, get?, List.find?_isSome, List.mem_map]
  simp only [beq_iff_eq]

theorem find?_key_eq_some_iff {models : List Model} (h : (models.map Model.key).Nodup)
    (key : ModelKey) (m : Model) :
    models.find? (fun m ↦ m.key == key) = some m ↔ m ∈ models ∧ m.key = key := by
  induction models with
  | nil => simp
  | cons first rest ih =>
    rw [List.map_cons, List.nodup_cons] at h
    rw [List.find?_cons]
    by_cases hk : first.key = key
    · have hnot : m ∈ rest → m.key ≠ key := fun hm e ↦
        h.1 (List.mem_map.2 ⟨m, hm, e.trans hk.symm⟩)
      simp only [hk, beq_self_eq_true, Option.some.injEq, List.mem_cons]
      exact ⟨fun e ↦ ⟨.inl e.symm, e ▸ hk⟩,
        fun ⟨hm, e⟩ ↦ hm.elim Eq.symm fun hm ↦ absurd e (hnot hm)⟩
    · have hne : (first.key == key) = false := by simpa using hk
      simp only [hne, ih h.2, List.mem_cons]
      exact ⟨fun ⟨hm, e⟩ ↦ ⟨.inr hm, e⟩,
        fun ⟨hm, e⟩ ↦ ⟨hm.resolve_left fun e' ↦ hk (e' ▸ e), e⟩⟩

theorem get?_eq_some_iff (r : Registry) (key : ModelKey) (m : Model) :
    r.get? key = some m ↔ m ∈ r.models ∧ m.key = key :=
  find?_key_eq_some_iff r.distinct key m

theorem distinct_append {r : Registry} {m : Model} (h : ¬r.contains m.key = true) :
    ((r.models ++ [m]).map Model.key).Nodup := by
  rw [contains_iff] at h
  have hp : ((r.models ++ [m]).map Model.key).Perm (m.key :: r.models.map Model.key) := by
    rw [List.map_append]
    exact List.perm_append_singleton _ _
  exact hp.symm.nodup (List.nodup_cons.2 ⟨h, r.distinct⟩)

/-- Add a model under a new key. -/
def register (r : Registry) (m : Model) : Except SchemaFault Registry :=
  if h : r.contains m.key then .error (.duplicateModel m.key.render)
  else .ok { r with models := r.models ++ [m], distinct := distinct_append h }

def registerAll (r : Registry) (models : List Model) : Except SchemaFault Registry :=
  models.foldlM register r

/-- Whether a key is the one of the identity model. -/
def isIdentity (r : Registry) (key : ModelKey) : Bool := key == r.identityModel

/-- What a filter may know about a field of a model: of the identity model only the `id`, whether
or not it is declared, of any other model the declared fields. -/
def searchable? (r : Registry) (key : ModelKey) (field : String) : Option FieldSpec :=
  if r.isIdentity key then (if field == "id" then some ⟨.auto, none⟩ else none)
  else (r.get? key).bind fun m ↦ m.field? field

/-- The fields to show: those asked for, else the model's own choice, else all of them. -/
def shownFields (m : Model) (requested : Option (List String)) : List String :=
  (requested.or m.shownFields).getD m.fields.keys

end Registry

end RowAccess

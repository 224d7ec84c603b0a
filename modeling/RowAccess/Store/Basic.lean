import RowAccess.Json.Printer
import RowAccess.Schema.Registry
import RowAccess.Store.Table

/-!
# The store

One table for every registered model. A new row may bring its own id, as long as no other row has
it, and is given the next one otherwise; every row is stored with its id in the field `id`. An
operation that fails leaves the store as it was, since it returns no store at all.
-/

namespace RowAccess

/-- Why the store refuses an operation. Models are named by the text of their key. -/
inductive StoreFault where
  /-- The tables cannot be used at all. -/
  | unusable (problem : String)
  | unknownTable (model : String)
  | idNotInteger (value : Json)
  | duplicateId (model : String) (id : Int)
  /-- Any other cause. -/
  | query (problem : String)

namespace StoreFault

/-- The wording of a fault. -/
def message : StoreFault → String
  | unusable problem => "Storage lock poisoned: " ++ problem
  | unknownTable model => "No table for model " ++ model
  | idNotInteger value => "Query error: id " ++ value.render ++ " is not an integer"
  | duplicateId model id =>
    "Query error: " ++ model ++ " already has a row with id " ++ Text.writeInt id
  | query problem => "Query error: " ++ problem

end StoreFault

/-- The tables of all models of a registry, in its order. -/
structure Store where
  registry : Registry
  tables : List (ModelKey × Table)
  covers : tables.map Prod.fst = registry.models.map Model.key

namespace Store

/-- The store with an empty table for every model. -/
def new (r : Registry) : Store where
  registry := r
  tables := r.models.map fun m ↦ (m.key, .empty)
  covers := by rw [List.map_map]; rfl

def table? (s : Store) (key : ModelKey) : Option Table := s.tables.lookup key

/-- The table of a model that has one. -/
def tableOf (s : Store) (key : ModelKey) : Except StoreFault Table :=
  match s.table? key with
  | some t => .ok t
  | none => .error (.unknownTable key.render)

/-- The tables with another one in place of the table of a model. -/
def replaceTable (key : ModelKey) (t : Table) (tables : List (ModelKey × Table)) :
    List (ModelKey × Table) :=
  tables.map fun entry ↦ if entry.1 = key then (key, t) else entry

theorem map_fst_replaceTable (key : ModelKey) (t : Table) (tables : List (ModelKey × Table)) :
    (replaceTable key t tables).map Prod.fst = tables.map Prod.fst := by
  rw [replaceTable, List.map_map]
  refine List.map_congr_left fun entry _ ↦ ?_
  by_cases h : entry.1 = key
  · simp [h]
  · simp [h]

/-- Replace the table of a model. -/
def setTable (s : Store) (key : ModelKey) (t : Table) : Store where
  registry := s.registry
  tables := replaceTable key t s.tables
  covers := (map_fst_replaceTable key t s.tables).trans s.covers

def get (s : Store) (key : ModelKey) (id : Int) : Except StoreFault (Option Row) := do
  return (← s.tableOf key).get? id

/-- The id of a new row: its own one, or the next one if it has none. -/
def newId (t : Table) (row : Row) : Except StoreFault Int :=
  match row.get? "id" with
  | none | some .null => .ok t.nextId
  | some value =>
    match value.asInt64? with
    | some id => .ok id
    | none => .error (.idNotInteger value)

/-- Store a new row. -/
def insert (s : Store) (key : ModelKey) (row : Row) : Except StoreFault (Row × Store) := do
  let t ← s.tableOf key
  let id ← newId t row
  if t.contains id then throw (.duplicateId key.render id)
  let stored := row.insert "id" (.int id)
  return (stored, s.setTable key (t.put id stored))

/-- Replace the row under an id, if there is one. -/
def update (s : Store) (key : ModelKey) (id : Int) (row : Row) :
    Except StoreFault (Option Row × Store) := do
  let t ← s.tableOf key
  if !t.contains id then return (none, s)
  let stored := row.insert "id" (.int id)
  return (some stored, s.setTable key (t.put id stored))

/-- Remove the row under an id; the answer says whether there was one. -/
def delete (s : Store) (key : ModelKey) (id : Int) : Except StoreFault (Bool × Store) := do
  let t ← s.tableOf key
  if !t.contains id then return (false, s)
  return (true, s.setTable key (t.erase id))

/-- Store several new rows, each with the key of its model. -/
def insertAll (s : Store) (rows : List (ModelKey × Row)) : Except StoreFault Store :=
  rows.foldlM (fun s (key, row) ↦ do return (← s.insert key row).2) s

@[simp] theorem table?_setTable (s : Store) (key other : ModelKey) (t : Table) :
    (s.setTable key t).table? other
      = if other = key then (s.table? key).map fun _ ↦ t else s.table? other := by
  simp only [table?, setTable, replaceTable]
  induction s.tables with
  | nil => simp
  | cons entry rest ih =>
    obtain ⟨k, old⟩ := entry
    by_cases hk : k = key
    · subst hk
      by_cases h : other = k <;> simp [lookup_cons_eq_ite, h, ih]
    · have hne : ¬key = k := fun e ↦ hk e.symm
      by_cases h : other = k
      · subst h
        simp [hk]
      · simp [lookup_cons_eq_ite, hk, hne, h, ih]

/-- Exactly the registered models have a table. -/
theorem isSome_table? (s : Store) (key : ModelKey) :
    (s.table? key).isSome = s.registry.contains key := by
  rw [Bool.eq_iff_iff, Registry.contains_iff, ← s.covers, table?]
  induction s.tables with
  | nil => simp
  | cons entry rest ih =>
    obtain ⟨k, t⟩ := entry
    rw [lookup_cons_eq_ite, List.map_cons, List.mem_cons]
    by_cases h : key = k
    · simp [h]
    · simp only [h, if_false, false_or]
      exact ih

end Store

end RowAccess

import RowAccess.Json.Basic

/-!
# Tables

The rows of one model, each under its integer id. A table is its list of rows in ascending order
of their ids, and the order is part of the type, so that two tables with the same rows are equal.
-/

namespace RowAccess

/-- The rows of one model. -/
structure Table where
  /-- The rows with their ids. -/
  entries : List (Int × Row)
  ascending : (entries.map Prod.fst).Pairwise (· < ·)

namespace Table

def empty : Table := ⟨[], .nil⟩

instance : Inhabited Table := ⟨empty⟩

def get? (t : Table) (id : Int) : Option Row := t.entries.lookup id

def contains (t : Table) (id : Int) : Bool := (t.get? id).isSome

/-- The rows, ascending by id. -/
def rows (t : Table) : List Row := t.entries.map Prod.snd

/-- The id of the next row: one more than the greatest id. -/
def nextId (t : Table) : Int :=
  match t.entries.getLast? with
  | some (last, _) => last + 1
  | none => 1

/-- The entries with a row under an id, in place of the row that was there. -/
def place (id : Int) (row : Row) : List (Int × Row) → List (Int × Row)
  | [] => [(id, row)]
  | (k, r) :: rest =>
    if id < k then (id, row) :: (k, r) :: rest
    else if id = k then (id, row) :: rest
    else (k, r) :: place id row rest

theorem mem_keys_place {id k : Int} {row : Row} {entries : List (Int × Row)}
    (h : k ∈ (place id row entries).map Prod.fst) : k = id ∨ k ∈ entries.map Prod.fst := by
  induction entries with
  | nil => simpa [place] using h
  | cons entry rest ih =>
    obtain ⟨n, r⟩ := entry
    rw [place] at h
    split at h
    · simpa using h
    · split at h
      · rename_i e
        simp only [List.map_cons, List.mem_cons] at h ⊢
        exact h.imp_right .inr
      · simp only [List.map_cons, List.mem_cons] at h ⊢
        rcases h with h | h
        · exact .inr (.inl h)
        · exact (ih h).imp_right .inr

theorem ascending_place (id : Int) (row : Row) {entries : List (Int × Row)}
    (h : (entries.map Prod.fst).Pairwise (· < ·)) :
    ((place id row entries).map Prod.fst).Pairwise (· < ·) := by
  induction entries with
  | nil => simp [place]
  | cons entry rest ih =>
    obtain ⟨n, r⟩ := entry
    simp only [List.map_cons, List.pairwise_cons] at h
    rw [place]
    split
    · rename_i hlt
      simp only [List.map_cons, List.pairwise_cons, List.mem_cons]
      refine ⟨fun k hk ↦ ?_, h⟩
      rcases hk with rfl | hk
      · exact hlt
      · exact Int.lt_trans hlt (h.1 k hk)
    · split
      · rename_i e
        subst e
        simpa only [List.map_cons, List.pairwise_cons] using h
      · rename_i hlt hne
        simp only [List.map_cons, List.pairwise_cons]
        refine ⟨fun k hk ↦ ?_, ih h.2⟩
        rcases mem_keys_place hk with rfl | hk
        · omega
        · exact h.1 k hk

def put (t : Table) (id : Int) (row : Row) : Table :=
  ⟨place id row t.entries, ascending_place id row t.ascending⟩

def erase (t : Table) (id : Int) : Table :=
  ⟨t.entries.filter fun entry ↦ entry.1 != id,
    t.ascending.sublist (List.filter_sublist.map Prod.fst)⟩

theorem get?_eq_some_iff {t : Table} {id : Int} {row : Row} :
    t.get? id = some row ↔ (id, row) ∈ t.entries :=
  lookup_eq_some_iff_mem (t.ascending.imp fun h ↦ Int.ne_of_lt h)

theorem mem_rows_of_get? {t : Table} {id : Int} {row : Row} (h : t.get? id = some row) :
    row ∈ t.rows :=
  List.mem_map.mpr ⟨_, get?_eq_some_iff.mp h, rfl⟩

@[simp] theorem get?_put (t : Table) (id other : Int) (row : Row) :
    (t.put id row).get? other = if other = id then some row else t.get? other := by
  simp only [get?, put]
  induction t.entries with
  | nil => simp [place, lookup_cons_eq_ite]
  | cons entry rest ih =>
    obtain ⟨k, r⟩ := entry
    rw [place]
    split
    · simp [lookup_cons_eq_ite]
    · split
      · rename_i e
        subst e
        by_cases h : other = id <;> simp [lookup_cons_eq_ite, h]
      · rename_i hne
        by_cases h : other = k
        · subst h
          simp [show ¬other = id from fun e ↦ hne e.symm]
        · simp [lookup_cons_eq_ite, h, ih]

@[simp] theorem get?_erase (t : Table) (id other : Int) :
    (t.erase id).get? other = if other = id then none else t.get? other := by
  simp only [get?, erase]
  induction t.entries with
  | nil => simp
  | cons entry rest ih =>
    obtain ⟨k, r⟩ := entry
    by_cases hk : k = id
    · subst hk
      rw [List.filter_cons_of_neg (by simp), ih, lookup_cons_eq_ite]
      by_cases h : other = k <;> simp [h]
    · rw [List.filter_cons_of_pos (by simpa using hk), lookup_cons_eq_ite, lookup_cons_eq_ite, ih]
      by_cases h : other = k
      · subst h
        simp [hk]
      · simp [h]

end Table

end RowAccess

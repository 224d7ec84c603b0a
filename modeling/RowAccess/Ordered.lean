/-!
# Insertion-ordered maps

Rows, declared fields and query parameters keep their keys in the order in which they were first
written. An `Ordered` map is its list of entries: writing a known key keeps its place, writing a
new one appends it, and removal fills the gap with the last entry. No key stands twice, which is
part of the type, so that a map holds exactly the entries that can be read from it.
-/

namespace RowAccess

/-! ## Association lists -/

theorem lookup_cons_eq_ite {κ α : Type} [DecidableEq κ] (key k : κ) (v : α) (rest : List (κ × α)) :
    ((k, v) :: rest).lookup key = if key = k then some v else rest.lookup key := by
  by_cases h : key = k
  · simp [h]
  · have hne : (key == k) = false := by simpa using h
    rw [List.lookup_cons, hne]
    simp [h]

theorem lookup_eq_some_iff_mem {κ α : Type} [DecidableEq κ] {entries : List (κ × α)}
    (h : (entries.map Prod.fst).Nodup) {key : κ} {v : α} :
    entries.lookup key = some v ↔ (key, v) ∈ entries := by
  induction entries with
  | nil => simp
  | cons entry rest ih =>
    obtain ⟨k, w⟩ := entry
    rw [List.map_cons, List.nodup_cons] at h
    rw [lookup_cons_eq_ite]
    by_cases hk : key = k
    · subst hk
      have hnot : (key, v) ∉ rest := fun hmem ↦
        h.1 (List.mem_map.2 ⟨_, hmem, rfl⟩)
      simp [hnot, eq_comm]
    · simp [hk, ih h.2]

theorem lookup_eq_of_perm {κ α : Type} [DecidableEq κ] {entries others : List (κ × α)}
    (h : (entries.map Prod.fst).Nodup) (p : entries.Perm others) (key : κ) :
    entries.lookup key = others.lookup key := by
  have h' : (others.map Prod.fst).Nodup := (p.map Prod.fst).nodup h
  refine Option.ext fun v ↦ ?_
  rw [lookup_eq_some_iff_mem h, lookup_eq_some_iff_mem h', p.mem_iff]

/-! ## Writing and removing entries -/

namespace Ordered

variable {α : Type}

/-- The entries after a name is given a value: in place if the name is known, else at the end. -/
def upsert (name : String) (value : α) : List (String × α) → List (String × α)
  | [] => [(name, value)]
  | (k, v) :: rest =>
    if name == k then (k, value) :: rest else (k, v) :: upsert name value rest

theorem mem_keys_upsert {name k : String} {value : α} {entries : List (String × α)}
    (h : k ∈ (upsert name value entries).map Prod.fst) :
    k = name ∨ k ∈ entries.map Prod.fst := by
  induction entries with
  | nil => simpa [upsert] using h
  | cons entry rest ih =>
    obtain ⟨n, v⟩ := entry
    rw [upsert] at h
    split at h
    · exact .inr h
    · simp only [List.map_cons, List.mem_cons] at h ⊢
      rcases h with h | h
      · exact .inr (.inl h)
      · exact (ih h).imp_right .inr

theorem nodup_upsert (name : String) (value : α) {entries : List (String × α)}
    (h : (entries.map Prod.fst).Nodup) : ((upsert name value entries).map Prod.fst).Nodup := by
  induction entries with
  | nil => simp [upsert]
  | cons entry rest ih =>
    obtain ⟨k, v⟩ := entry
    have hc := h
    rw [List.map_cons, List.nodup_cons] at hc
    rw [upsert]
    split
    · exact h
    · rename_i hne
      rw [List.map_cons, List.nodup_cons]
      refine ⟨fun hmem ↦ ?_, ih hc.2⟩
      rcases mem_keys_upsert hmem with e | hmem
      · exact hne (by simp [show k = name from e])
      · exact hc.1 hmem

/-- A new name comes last; a known one keeps its place. -/
theorem keys_upsert (name : String) (value : α) (entries : List (String × α)) :
    (upsert name value entries).map Prod.fst
      = if name ∈ entries.map Prod.fst then entries.map Prod.fst
        else entries.map Prod.fst ++ [name] := by
  induction entries with
  | nil => rfl
  | cons entry rest ih =>
    obtain ⟨k, v⟩ := entry
    by_cases hk : name = k
    · simp [upsert, hk]
    · have hne : (name == k) = false := by simpa using hk
      rw [upsert, hne, if_neg Bool.false_ne_true, List.map_cons, ih]
      by_cases hmem : name ∈ rest.map Prod.fst
      · rw [if_pos hmem, List.map_cons, if_pos (List.mem_cons_of_mem _ hmem)]
      · rw [if_neg hmem, List.map_cons, if_neg fun h ↦ (List.mem_cons.mp h).elim hk hmem]
        rfl

theorem lookup_upsert (name other : String) (value : α) (entries : List (String × α)) :
    (upsert name value entries).lookup other
      = if other = name then some value else entries.lookup other := by
  induction entries with
  | nil => simp [upsert, lookup_cons_eq_ite]
  | cons entry rest ih =>
    obtain ⟨k, v⟩ := entry
    by_cases hk : name = k
    · subst hk
      by_cases h : other = name <;> simp [upsert, lookup_cons_eq_ite, h]
    · by_cases h : other = k
      · subst h
        simp [upsert, hk, show ¬other = name from fun e ↦ hk e.symm]
      · simp [upsert, lookup_cons_eq_ite, hk, h, ih]

/-- The entries without a name, where the last entry moves into the gap. -/
def swapOut (name : String) : List (String × α) → List (String × α)
  | [] => []
  | (k, v) :: rest =>
    if name == k then
      match rest.getLast? with
      | none => []
      | some last => last :: rest.dropLast
    else (k, v) :: swapOut name rest

/-- The entries without a name, in their old order. -/
def dropName (name : String) : List (String × α) → List (String × α)
  | [] => []
  | (k, v) :: rest => if name == k then rest else (k, v) :: dropName name rest

theorem dropName_sublist (name : String) (entries : List (String × α)) :
    (dropName name entries).Sublist entries := by
  induction entries with
  | nil => exact .slnil
  | cons entry rest ih =>
    obtain ⟨k, v⟩ := entry
    rw [dropName]
    split
    · exact List.sublist_cons_self _ _
    · exact ih.cons_cons _

theorem swapOut_perm (name : String) (entries : List (String × α)) :
    (swapOut name entries).Perm (dropName name entries) := by
  induction entries with
  | nil => exact .nil
  | cons entry rest ih =>
    obtain ⟨k, v⟩ := entry
    rw [swapOut, dropName]
    split
    · split
      · rename_i h
        rw [List.getLast?_eq_none_iff.1 h]
      · rename_i last h
        obtain ⟨init, rfl⟩ := List.getLast?_eq_some_iff.1 h
        rw [List.dropLast_concat]
        exact (List.perm_append_singleton last init).symm
    · exact ih.cons _

theorem nodup_swapOut (name : String) {entries : List (String × α)}
    (h : (entries.map Prod.fst).Nodup) : ((swapOut name entries).map Prod.fst).Nodup :=
  ((swapOut_perm name entries).symm.map Prod.fst).nodup
    (h.sublist ((dropName_sublist name entries).map Prod.fst))

theorem lookup_dropName (name other : String) {entries : List (String × α)}
    (h : (entries.map Prod.fst).Nodup) :
    (dropName name entries).lookup other
      = if other = name then none else entries.lookup other := by
  induction entries with
  | nil => simp [dropName]
  | cons entry rest ih =>
    obtain ⟨k, v⟩ := entry
    rw [List.map_cons, List.nodup_cons] at h
    by_cases hk : name = k
    · subst hk
      by_cases ho : other = name
      · subst ho
        have hnone : rest.lookup other = none := by
          refine List.lookup_eq_none_iff.2 fun entry hmem ↦ ?_
          have hne : other ≠ entry.1 := fun e ↦
            h.1 (List.mem_map.2 ⟨entry, hmem, e.symm⟩)
          simpa using hne
        simp [dropName, hnone]
      · simp [dropName, lookup_cons_eq_ite, ho]
    · by_cases ho : other = k
      · subst ho
        simp [dropName, hk, show ¬other = name from fun e ↦ hk e.symm]
      · simp [dropName, lookup_cons_eq_ite, hk, ho, ih h.2]

end Ordered

/-! ## Maps -/

/-- A map from names to values that remembers the order of its names. -/
structure Ordered (α : Type) where
  /-- The entries, the oldest name first. -/
  entries : List (String × α)
  nodup : (entries.map Prod.fst).Nodup

namespace Ordered

variable {α : Type}

def empty : Ordered α := ⟨[], .nil⟩

instance : Inhabited (Ordered α) := ⟨empty⟩

def get? (m : Ordered α) (name : String) : Option α := m.entries.lookup name

def contains (m : Ordered α) (name : String) : Bool := (m.get? name).isSome

def keys (m : Ordered α) : List String := m.entries.map Prod.fst

def insert (m : Ordered α) (name : String) (value : α) : Ordered α :=
  ⟨upsert name value m.entries, nodup_upsert name value m.nodup⟩

def insertAll (m : Ordered α) (entries : List (String × α)) : Ordered α :=
  entries.foldl (fun acc entry ↦ acc.insert entry.1 entry.2) m

/-- The map that a list of entries writes: a repeated name keeps its first place and its last
value. -/
def ofList (entries : List (String × α)) : Ordered α := empty.insertAll entries

/-- Remove a name; the last entry takes its place. -/
def erase (m : Ordered α) (name : String) : Ordered α :=
  ⟨swapOut name m.entries, nodup_swapOut name m.nodup⟩

def filterKeys (m : Ordered α) (p : String → Bool) : Ordered α :=
  ⟨m.entries.filter fun entry ↦ p entry.1, m.nodup.sublist (List.filter_sublist.map Prod.fst)⟩

theorem mem_keys_iff {m : Ordered α} {name : String} :
    name ∈ m.keys ↔ ∃ value, m.get? name = some value := by
  rw [keys, List.mem_map]
  constructor
  · rintro ⟨entry, hentry, rfl⟩
    exact ⟨entry.2, (lookup_eq_some_iff_mem m.nodup).mpr hentry⟩
  · rintro ⟨value, hvalue⟩
    exact ⟨(name, value), (lookup_eq_some_iff_mem m.nodup).mp hvalue, rfl⟩

@[simp] theorem get?_insert (m : Ordered α) (name other : String) (value : α) :
    (m.insert name value).get? other = if other = name then some value else m.get? other :=
  lookup_upsert name other value m.entries

/-- Reading after writing several names: a name that was among them has the value it was given. -/
theorem get?_insertAll (m changes : Ordered α) (name : String) :
    (m.insertAll changes.entries).get? name = (changes.get? name).or (m.get? name) := by
  have hentries : ∀ (entries : List (String × α)) (m : Ordered α),
      (entries.map Prod.fst).Nodup →
        (m.insertAll entries).get? name = (entries.lookup name).or (m.get? name) := by
    intro entries
    induction entries with
    | nil => exact fun m _ ↦ rfl
    | cons entry rest ih =>
      obtain ⟨k, v⟩ := entry
      intro m hnodup
      rw [List.map_cons, List.nodup_cons] at hnodup
      have hstep := ih (m.insert k v) hnodup.2
      rw [get?_insert] at hstep
      rw [lookup_cons_eq_ite]
      refine hstep.trans ?_
      by_cases hk : name = k
      · subst hk
        have hnone : rest.lookup name = none := List.lookup_eq_none_iff.mpr fun entry hmem ↦ by
          have hne : name ≠ entry.1 := fun e ↦
            hnodup.1 (List.mem_map.mpr ⟨entry, hmem, e.symm⟩)
          simpa using hne
        rw [hnone, if_pos rfl, if_pos rfl, Option.none_or, Option.some_or]
      · rw [if_neg hk, if_neg hk]
  exact hentries changes.entries m changes.nodup

theorem get?_filterKeys (m : Ordered α) (p : String → Bool) (name : String) :
    (m.filterKeys p).get? name = if p name then m.get? name else none := by
  refine Option.ext fun value ↦ ?_
  rw [get?, lookup_eq_some_iff_mem (m.filterKeys p).nodup, filterKeys, List.mem_filter,
    ← lookup_eq_some_iff_mem m.nodup, ← get?]
  by_cases hp : p name = true <;> simp [hp]

@[simp] theorem get?_erase (m : Ordered α) (name other : String) :
    (m.erase name).get? other = if other = name then none else m.get? other := by
  have hperm := lookup_eq_of_perm (nodup_swapOut name m.nodup) (swapOut_perm name m.entries) other
  exact hperm.trans (lookup_dropName name other m.nodup)

end Ordered

end RowAccess

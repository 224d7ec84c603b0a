import RowAccess.Proofs.Text.Integer
import RowAccess.Query.Parameters

/-!
# What the parameters of a query hold

The parameters are gathered pair by pair. A key is held if and only if some pair has it, at the
place of its first pair, and its values are those of its pairs, in their order. So pairs with a
reserved key can be exchanged without touching the filters, which is how a client asks for another
page of the same list (`atOffset`).
-/

namespace RowAccess.Parameters

theorem contains_push (p : Parameters) (key value other : String) :
    (p.push key value).contains other = (other == key || p.contains other) := by
  rw [contains, Ordered.contains, push, Ordered.get?_insert, contains, Ordered.contains]
  by_cases h : other = key <;> simp [h]

theorem contains_ofPairs (pairs : List (String × String)) (key : String) :
    (ofPairs pairs).contains key = pairs.any fun pair ↦ key == pair.1 := by
  have hfold : ∀ (p : Parameters), (pairs.foldl (fun p (pair : String × String) ↦
      p.push pair.1 pair.2) p).contains key
        = (p.contains key || pairs.any fun pair ↦ key == pair.1) := by
    induction pairs with
    | nil => intro p; simp
    | cons pair rest ih =>
      intro p
      rw [List.foldl_cons, ih, contains_push, List.any_cons, Bool.or_comm (key == pair.1),
        Bool.or_assoc]
  exact (hfold {}).trans (Bool.false_or _)

theorem all_push (p : Parameters) (key value other : String) :
    (p.push key value).all other = if other = key then p.all key ++ [value] else p.all other := by
  rw [all, push, Ordered.get?_insert]
  by_cases h : other = key
  · rw [if_pos h, if_pos h, Option.getD_some]
  · rw [if_neg h, if_neg h, all]

theorem all_ofPairs (pairs : List (String × String)) (key : String) :
    (ofPairs pairs).all key = (pairs.filter fun pair ↦ pair.1 == key).map Prod.snd := by
  have hfold : ∀ (p : Parameters), (pairs.foldl (fun p (pair : String × String) ↦
      p.push pair.1 pair.2) p).all key
        = p.all key ++ (pairs.filter fun pair ↦ pair.1 == key).map Prod.snd := by
    induction pairs with
    | nil => intro p; simp
    | cons pair rest ih =>
      intro p
      rw [List.foldl_cons, ih, all_push]
      by_cases h : key = pair.1
      · subst h
        simp
      · rw [if_neg h, List.filter_cons_of_neg (by simpa using Ne.symm h)]
  exact (hfold {}).trans (List.nil_append _)

theorem mem_filters {p : Parameters} {key : String} {values : List String} :
    (key, values) ∈ p.filters ↔ isReserved key = false ∧ p.values.get? key = some values := by
  rw [filters, Ordered.filterKeys, List.mem_filter, Bool.not_eq_true', Ordered.get?,
    lookup_eq_some_iff_mem p.values.nodup, and_comm]

/-- The keys of the parameters are those of the pairs, in the order in which they appear first. -/
theorem keys_ofPairs (pairs : List (String × String)) :
    (ofPairs pairs).values.keys = (pairs.map Prod.fst).eraseDups := by
  have hfold : ∀ p : Parameters, (pairs.foldl (fun p (pair : String × String) ↦
      p.push pair.1 pair.2) p).values.keys
        = p.values.keys ++ ((pairs.map Prod.fst).removeAll p.values.keys).eraseDups := by
    induction pairs with
    | nil => intro p; exact (List.append_nil _).symm
    | cons pair rest ih =>
      intro p
      have hpush : (p.push pair.1 pair.2).values.keys
          = if pair.1 ∈ p.values.keys then p.values.keys else p.values.keys ++ [pair.1] :=
        Ordered.keys_upsert pair.1 _ _
      rw [List.foldl_cons, ih, hpush, List.map_cons]
      by_cases hmem : pair.1 ∈ p.values.keys
      · simp [List.removeAll, hmem]
      · -- A new key is the first of the keys behind the known ones.
        have hkeys : (pair.1 :: rest.map Prod.fst).removeAll p.values.keys
            = pair.1 :: (rest.map Prod.fst).removeAll p.values.keys :=
          List.filter_cons_of_pos (by simpa using hmem)
        have hothers : (rest.map Prod.fst).removeAll (p.values.keys ++ [pair.1])
            = ((rest.map Prod.fst).removeAll p.values.keys).filter fun key ↦ !key == pair.1 := by
          rw [List.removeAll, List.removeAll, List.filter_filter]
          exact List.filter_congr fun key _ ↦ by simp [Bool.and_comm, Bool.beq_eq_decide_eq]
        rw [if_neg hmem, hkeys, List.eraseDups_cons, hothers, List.append_assoc]
        rfl
  have hall : (pairs.map Prod.fst).removeAll [] = pairs.map Prod.fst :=
    List.filter_eq_self.mpr fun _ _ ↦ rfl
  exact (hfold {}).trans (congrArg List.eraseDups hall)

theorem entries_eq (p : Parameters) :
    p.values.entries = p.values.keys.map fun key ↦ (key, p.all key) := by
  have hentry : ∀ entry ∈ p.values.entries, id entry = (entry.1, p.all entry.1) := by
    intro entry hentry
    have hvalues := (lookup_eq_some_iff_mem p.values.nodup).mpr hentry
    rw [all, Ordered.get?, hvalues]
    rfl
  rw [Ordered.keys, List.map_map]
  exact (List.map_id _).symm.trans (List.map_congr_left hentry)

theorem filters_ofPairs (pairs : List (String × String)) :
    (ofPairs pairs).filters
      = ((pairs.map Prod.fst).eraseDups.filter fun key ↦ !isReserved key).map fun key ↦
          (key, (ofPairs pairs).all key) := by
  have hfilters : (ofPairs pairs).filters
      = (ofPairs pairs).values.entries.filter fun entry ↦ !isReserved entry.1 := rfl
  rw [hfilters, entries_eq, keys_ofPairs, List.filter_map]
  rfl
theorem mem_of_mem_filters {pairs : List (String × String)} {key value : String}
    {values : List String} (h : (key, values) ∈ (ofPairs pairs).filters) (hvalue : value ∈ values) :
    (key, value) ∈ pairs := by
  have hall : (ofPairs pairs).all key = values := by
    rw [all, (mem_filters.mp h).2, Option.getD_some]
  rw [← hall, all_ofPairs] at hvalue
  obtain ⟨⟨name, _⟩, hfound, rfl⟩ := List.mem_map.mp hvalue
  obtain ⟨hpair, hname⟩ := List.mem_filter.mp hfound
  obtain rfl : name = key := beq_iff_eq.mp hname
  exact hpair

theorem exists_mem_filters {pairs : List (String × String)} {key value : String}
    (h : (key, value) ∈ pairs) (hkey : isReserved key = false) :
    (key, (ofPairs pairs).all key) ∈ (ofPairs pairs).filters ∧
      value ∈ (ofPairs pairs).all key := by
  have hvalue : value ∈ (ofPairs pairs).all key := by
    rw [all_ofPairs]
    exact List.mem_map.mpr ⟨_, List.mem_filter.mpr ⟨h, beq_self_eq_true _⟩, rfl⟩
  refine ⟨mem_filters.mpr ⟨hkey, ?_⟩, hvalue⟩
  cases hvalues : (ofPairs pairs).values.get? key with
  | some values => rw [all, hvalues, Option.getD_some]
  | none =>
    rw [all, hvalues] at hvalue
    exact absurd hvalue List.not_mem_nil

/-! ## Another window of the same query -/

theorem filter_upsert {α : Type} (test : String → Bool) (name : String) (value : α)
    (entries : List (String × α)) :
    (Ordered.upsert name value entries).filter (fun entry ↦ test entry.1) =
      if test name then Ordered.upsert name value (entries.filter fun entry ↦ test entry.1)
      else entries.filter fun entry ↦ test entry.1 := by
  induction entries with
  | nil => cases h : test name <;> simp [Ordered.upsert, h]
  | cons entry rest ih =>
    obtain ⟨k, v⟩ := entry
    by_cases hk : name = k
    · subst hk
      cases h : test name <;> simp [Ordered.upsert, h]
    · cases hname : test name <;> cases hkey : test k <;>
        simp [Ordered.upsert, hk, hname, hkey] at ih ⊢ <;> exact ih

theorem lookup_filters {p : Parameters} {key : String} (hkey : isReserved key = false) :
    p.filters.lookup key = p.values.get? key := by
  refine Option.ext fun values ↦ ?_
  have hlookup : p.filters.lookup key = some values ↔ _ :=
    lookup_eq_some_iff_mem (p.values.filterKeys fun key ↦ !isReserved key).nodup
  rw [hlookup]
  exact mem_filters.trans (and_iff_right hkey)

theorem filters_push (p : Parameters) (key value : String) :
    (p.push key value).filters = if isReserved key then p.filters
      else Ordered.upsert key ((p.filters.lookup key).getD [] ++ [value]) p.filters := by
  have hfilter := filter_upsert (fun key ↦ !isReserved key) key (p.all key ++ [value])
    p.values.entries
  cases hkey : isReserved key with
  | true =>
    rw [hkey] at hfilter
    exact hfilter
  | false =>
    rw [hkey] at hfilter
    rw [lookup_filters hkey]
    exact hfilter

/-- Pairs with reserved keys do not count for the filters. -/
theorem filters_ofPairs_filter {test : String × String → Bool}
    (htest : ∀ pair, test pair = false → isReserved pair.1 = true)
    (pairs : List (String × String)) :
    (ofPairs (pairs.filter test)).filters = (ofPairs pairs).filters := by
  have hfold : ∀ p q : Parameters, p.filters = q.filters →
      ((pairs.filter test).foldl (fun p (pair : String × String) ↦ p.push pair.1 pair.2) p).filters
        = (pairs.foldl (fun p (pair : String × String) ↦ p.push pair.1 pair.2) q).filters := by
    induction pairs with
    | nil => exact fun p q h ↦ h
    | cons pair rest ih =>
      intro p q h
      rw [List.foldl_cons]
      cases hpair : test pair with
      | true =>
        rw [List.filter_cons_of_pos hpair, List.foldl_cons]
        exact ih _ _ (by rw [filters_push, filters_push, h])
      | false =>
        rw [List.filter_cons_of_neg (by simp [hpair])]
        exact ih _ _ (by rw [filters_push, htest pair hpair, if_pos rfl, h])
  exact hfold {} {} rfl

/-- The pairs of the same query with another offset. -/
def atOffset (pairs : List (String × String)) (offset : Nat) : List (String × String) :=
  pairs.filter (fun pair ↦ pair.1 != "offset") ++ [("offset", offset.repr)]

section AtOffset

variable (pairs : List (String × String)) (offset : Nat)

theorem filters_atOffset : (ofPairs (atOffset pairs offset)).filters = (ofPairs pairs).filters := by
  have hreserved : ∀ pair : String × String, (pair.1 != "offset") = false →
      isReserved pair.1 = true := fun pair h ↦ by
    rw [bne_eq_false_iff_eq.mp h]
    rfl
  rw [← filters_ofPairs_filter hreserved, ← filters_ofPairs_filter hreserved pairs]
  refine congrArg (fun pairs ↦ (ofPairs pairs).filters) ?_
  rw [atOffset, List.filter_append, List.filter_filter]
  simp

theorem all_atOffset {key : String} (hkey : key ≠ "offset") :
    (ofPairs (atOffset pairs offset)).all key = (ofPairs pairs).all key := by
  have hother : ∀ pair : String × String,
      (pair.1 == key && pair.1 != "offset") = (pair.1 == key) := fun pair ↦ by
    by_cases h : pair.1 = key
    · simp [h, hkey]
    · simp [h]
  rw [all_ofPairs, all_ofPairs, atOffset, List.filter_append, List.filter_filter]
  simp only [hother]
  simp [Ne.symm hkey]

theorem first?_atOffset {key : String} (hkey : key ≠ "offset") :
    (ofPairs (atOffset pairs offset)).first? key = (ofPairs pairs).first? key := by
  rw [first?, first?, all_atOffset pairs offset hkey]

theorem contains_atOffset {key : String} (hkey : key ≠ "offset") :
    (ofPairs (atOffset pairs offset)).contains key = (ofPairs pairs).contains key := by
  rw [contains_ofPairs, contains_ofPairs, atOffset, List.any_append, List.any_filter]
  have hother : ∀ pair : String × String,
      (pair.1 != "offset" && key == pair.1) = (key == pair.1) := fun pair ↦ by
    by_cases h : key = pair.1
    · simp [← h, hkey]
    · simp [h]
  simp [hother, hkey]

theorem offset?_atOffset {offset : Nat} (h : offset ≤ Text.nat64Max) :
    (ofPairs (atOffset pairs offset)).offset? = some offset := by
  have hall : (ofPairs (atOffset pairs offset)).all "offset" = [offset.repr] := by
    rw [all_ofPairs, atOffset, List.filter_append, List.filter_filter]
    simp
  rw [offset?, size?, first?, hall, List.head?_cons, Option.bind_some]
  exact Text.readNat64?_trim_repr h

end AtOffset

end RowAccess.Parameters

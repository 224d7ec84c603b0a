/-!
# Chains of versions

A row has its versions one after the other: the first one, and the one that every write leaves. A
write is prepared from the row as it was read, and it counts on from the version found there. If
other writes came in between, then this version is an older one, the write takes their place in the
count, and what they wrote is lost.

So a chain can be told sound by any one of three signs: that every write went over the version it
expected, that no two writes expected the same version, and that no two writes returned the same
version. Each of them holds exactly if every write was prepared from what the write before it left.
-/

namespace RowAccess

/-- A write of a row by one of several requests. -/
structure RowWrite (ι : Type) where
  request : ι
  /-- How many writes of the row came before the request read it. -/
  seen : Nat
  /-- The version of the row that was written over. -/
  replaced : Int
  /-- The version that was returned to the requester. -/
  returned : Int
  deriving DecidableEq

namespace RowWrite

variable {ι : Type}

/-- The versions that a row has had, the oldest one first. -/
def versions (first : Int) (writes : List (RowWrite ι)) : List Int :=
  first :: writes.map returned

/-- A write at some place of a chain expected a version that the row had had by then, went over
the latest one, and returned the number after the one it expected. -/
structure Follows (expected : ι → Int) (first : Int) (writes : List (RowWrite ι)) (k : Nat)
    (w : RowWrite ι) : Prop where
  seen_le : w.seen ≤ k
  found : (versions first writes)[w.seen]? = some (expected w.request)
  replaced : (versions first writes)[k]? = some w.replaced
  returned : w.returned = expected w.request + 1

/-- Every write follows the ones before it. -/
def Chain (expected : ι → Int) (first : Int) (writes : List (RowWrite ι)) : Prop :=
  ∀ (k : Nat) (w : RowWrite ι), writes[k]? = some w → Follows expected first writes k w

/-- Every write was prepared from what the write before it left. -/
def InTurn (writes : List (RowWrite ι)) : Prop :=
  ∀ (k : Nat) (w : RowWrite ι), writes[k]? = some w → w.seen = k

variable {expected : ι → Int} {first : Int} {writes : List (RowWrite ι)}

theorem getElem?_versions_succ {k : Nat} {w : RowWrite ι} (h : writes[k]? = some w) :
    (versions first writes)[k + 1]? = some w.returned := by
  rw [versions, List.getElem?_cons_succ, List.getElem?_map, h, Option.map_some]

/-! ## Growing chains -/

theorem getElem?_versions_append {k : Nat} {x : Int} (w : RowWrite ι)
    (h : (versions first writes)[k]? = some x) :
    (versions first (writes ++ [w]))[k]? = some x := by
  have hsplit : versions first (writes ++ [w]) = versions first writes ++ [w.returned] := by
    rw [versions, List.map_append, List.map_singleton, versions, List.cons_append]
  obtain ⟨hlt, -⟩ := List.getElem?_eq_some_iff.mp h
  rw [hsplit, List.getElem?_append_left hlt, h]

theorem getElem?_concat_eq_some {k : Nat} {w w' : RowWrite ι}
    (h : (writes ++ [w])[k]? = some w') : writes[k]? = some w' ∨ k = writes.length ∧ w' = w := by
  rcases Nat.lt_or_ge k writes.length with hlt | hge
  · rw [List.getElem?_append_left hlt] at h
    exact .inl h
  · rw [List.getElem?_append_right hge, List.getElem?_singleton] at h
    split at h
    · exact .inr ⟨by omega, (Option.some.inj h).symm⟩
    · exact nomatch h

theorem Chain.append (h : Chain expected first writes) {w : RowWrite ι}
    (hw : Follows expected first writes writes.length w) :
    Chain expected first (writes ++ [w]) := by
  intro k w' hk
  have hfollows : Follows expected first writes k w' := by
    rcases getElem?_concat_eq_some hk with hk | ⟨rfl, rfl⟩
    · exact h k w' hk
    · exact hw
  exact {
    seen_le := hfollows.seen_le
    found := getElem?_versions_append w hfollows.found
    replaced := getElem?_versions_append w hfollows.replaced
    returned := hfollows.returned }

theorem InTurn.append (h : InTurn writes) {w : RowWrite ι} (hw : w.seen = writes.length) :
    InTurn (writes ++ [w]) := by
  intro k w' hk
  rcases getElem?_concat_eq_some hk with hk | ⟨rfl, rfl⟩
  · exact h k w' hk
  · exact hw

/-! ## Signs of a sound chain -/

/-- If every write up to a point returned one more than the version it went over, then the versions
up to this point count up from the first one. -/
theorem versions_count {n : Nat} (h : ∀ (k : Nat) (w : RowWrite ι), k < n → writes[k]? = some w →
      (versions first writes)[k]? = some (w.returned - 1)) :
    ∀ k, k ≤ n → k ≤ writes.length → (versions first writes)[k]? = some (first + k) := by
  intro k
  induction k with
  | zero =>
    intro _ _
    rw [versions, List.getElem?_cons_zero, Int.natCast_zero, Int.add_zero]
  | succ k ih =>
    intro hkn hklen
    have hk := List.getElem?_eq_getElem (show k < writes.length by omega)
    have hprevious := ih (by omega) (by omega)
    have hnext := h k _ (by omega) hk
    have hcount : writes[k].returned - 1 = first + k :=
      Option.some.inj (hnext.symm.trans hprevious)
    rw [getElem?_versions_succ hk]
    exact congrArg some (by omega)

theorem Chain.versions_count_of_inTurn (h : Chain expected first writes) {n : Nat}
    (hturn : ∀ (k : Nat) (w : RowWrite ι), k < n → writes[k]? = some w → w.seen = k) :
    ∀ k, k ≤ n → k ≤ writes.length → (versions first writes)[k]? = some (first + k) := by
  refine versions_count fun k w hkn hk ↦ ?_
  have hfound := (h k w hk).found
  have hreturned := (h k w hk).returned
  rw [hturn k w hkn hk] at hfound
  rw [hfound]
  exact congrArg some (by omega)

/-- Writes went over the versions they expected if and only if they were in turn. -/
theorem Chain.replaced_eq_iff_inTurn (h : Chain expected first writes) :
    (∀ w ∈ writes, w.replaced = expected w.request) ↔ InTurn writes := by
  constructor
  · intro hreplaced
    have hcount : ∀ k, k ≤ writes.length → k ≤ writes.length →
        (versions first writes)[k]? = some (first + k) := by
      refine versions_count fun k w _ hk ↦ ?_
      have hlatest := (h k w hk).replaced
      have hreturned := (h k w hk).returned
      rw [hreplaced w (List.mem_of_getElem? hk)] at hlatest
      rw [hlatest]
      exact congrArg some (by omega)
    intro k w hk
    obtain ⟨hlt, -⟩ := List.getElem?_eq_some_iff.mp hk
    -- The versions count up, so the version a write went over tells how many it had seen.
    have hseen := (h k w hk).seen_le
    have hold := hcount w.seen (by omega) (by omega)
    have hlatest := hcount k (by omega) (by omega)
    rw [(h k w hk).found] at hold
    rw [(h k w hk).replaced, hreplaced w (List.mem_of_getElem? hk)] at hlatest
    have hsame : first + (w.seen : Int) = first + (k : Int) :=
      (Option.some.inj hold).symm.trans (Option.some.inj hlatest)
    omega
  · intro hturn w hw
    obtain ⟨k, hk⟩ := List.mem_iff_getElem?.mp hw
    have hfound := (h k w hk).found
    rw [hturn k w hk, (h k w hk).replaced] at hfound
    exact Option.some.inj hfound

/-- What the requests of a chain expected, in the order of their writes. -/
def expectations (expected : ι → Int) (writes : List (RowWrite ι)) : List Int :=
  writes.map fun w ↦ expected w.request

/-- No two writes expected the same version if and only if they were in turn. -/
theorem Chain.nodup_expectations_iff_inTurn (h : Chain expected first writes) :
    (expectations expected writes).Nodup ↔ InTurn writes := by
  rw [List.Nodup, expectations, List.pairwise_map, List.pairwise_iff_getElem]
  constructor
  · intro hdistinct k
    induction k using Nat.strongRecOn with
    | ind k ih =>
      intro w hk
      obtain ⟨hlt, hw⟩ := List.getElem?_eq_some_iff.mp hk
      have hseen := (h k w hk).seen_le
      have hcount := h.versions_count_of_inTurn (n := k) fun j w' hj hj' ↦ ih j hj w' hj'
      -- An expected version that is not the latest one was expected by an earlier write already.
      refine Classical.byContradiction fun hne ↦ ?_
      have hearlier : w.seen < k := by omega
      have hbound : w.seen < writes.length := by omega
      have hwrite := List.getElem?_eq_getElem hbound
      have hturn := ih w.seen hearlier _ hwrite
      have hfound := (h w.seen _ hwrite).found
      rw [hturn, (h k w hk).found] at hfound
      exact hdistinct w.seen k hbound hlt hearlier (hw ▸ (Option.some.inj hfound).symm)
  · intro hturn i j hi hj hij
    have hcount := h.versions_count_of_inTurn (n := writes.length) fun k w _ hk ↦ hturn k w hk
    have hexpected : ∀ k (hk : k < writes.length), expected writes[k].request = first + k := by
      intro k hk
      have hwrite := List.getElem?_eq_getElem hk
      have hfound := (h k _ hwrite).found
      rw [hturn k _ hwrite, hcount k (by omega) (by omega)] at hfound
      exact (Option.some.inj hfound).symm
    rw [hexpected i hi, hexpected j hj]
    omega

theorem Chain.nodup_returned_iff_inTurn (h : Chain expected first writes) :
    (writes.map RowWrite.returned).Nodup ↔ InTurn writes := by
  have hreturned : writes.map RowWrite.returned
      = (expectations expected writes).map (· + 1) := by
    rw [expectations, List.map_map]
    refine List.map_congr_left fun w hw ↦ ?_
    obtain ⟨k, hk⟩ := List.mem_iff_getElem?.mp hw
    exact (h k w hk).returned
  rw [← h.nodup_expectations_iff_inTurn, hreturned]
  unfold List.Nodup
  rw [List.pairwise_map]
  exact ⟨fun hdistinct ↦ hdistinct.imp fun hne e ↦ hne (congrArg (· + 1) e),
    fun hdistinct ↦ hdistinct.imp fun hne e ↦ hne (by omega)⟩

end RowWrite

end RowAccess

import RowAccess.Store.Evaluation

/-!
# Relations that several conditions begin with

A relation is joined if more than one condition begins with it. The evaluation finds these
relations by sorting the names that conditions begin with: equal names then stand next to each
other (`SortedNames.mem_zip_tail_iff`), and a scan of neighbours notes them. So it finds exactly the
names that occur twice (`Predicate.mem_joinedRoots`), and nothing else is used of the scan.
-/

namespace RowAccess

variable {name : String} {names : List String}

/-! ## Sorted names -/

theorem insertName_perm (name : String) (names : List String) :
    (insertName name names).Perm (name :: names) := by
  induction names with
  | nil => exact .refl _
  | cons next rest ih =>
    rw [insertName]
    split
    · exact (ih.cons next).trans (.swap name next rest)
    · exact .refl _

theorem foldr_insertName_perm (names : List String) :
    (names.foldr insertName []).Perm names := by
  induction names with
  | nil => exact .nil
  | cons name rest ih => exact (insertName_perm name _).trans (ih.cons name)

/-- Names are sorted if none stands before one that it comes after. -/
def SortedNames (names : List String) : Prop :=
  names.Pairwise fun a b ↦ (compare a b).isLE = true

theorem sortedNames_insertName (h : SortedNames names) : SortedNames (insertName name names) := by
  induction names with
  | nil => exact List.pairwise_singleton _ _
  | cons next rest ih =>
    obtain ⟨hnext, hrest⟩ := List.pairwise_cons.mp h
    rw [insertName]
    split
    · rename_i hafter
      have hswap : compare next name = (compare name next).swap := Std.OrientedCmp.eq_swap
      have hbefore : (compare next name).isLE = true := by
        rw [hswap, hafter]
        rfl
      refine List.pairwise_cons.mpr ⟨fun other hother ↦ ?_, ih hrest⟩
      rcases List.mem_cons.mp ((insertName_perm name rest).mem_iff.mp hother) with rfl | hmem
      · exact hbefore
      · exact hnext other hmem
    · rename_i hnot
      have hbefore : (compare name next).isLE = true := Ordering.isLE_iff_ne_gt.mpr hnot
      refine List.pairwise_cons.mpr ⟨fun other hother ↦ ?_, h⟩
      rcases List.mem_cons.mp hother with rfl | hmem
      · exact hbefore
      · exact Std.TransCmp.isLE_trans hbefore (hnext other hmem)

theorem sortedNames_foldr_insertName (names : List String) :
    SortedNames (names.foldr insertName []) := by
  induction names with
  | nil => exact .nil
  | cons name rest ih => exact sortedNames_insertName ih

/-- Among sorted names, one stands next to itself if it occurs twice. -/
theorem SortedNames.mem_zip_tail_iff (h : SortedNames names) :
    (name, name) ∈ names.zip names.tail ↔ 2 ≤ names.count name := by
  induction names with
  | nil => simp
  | cons first rest ih =>
    obtain ⟨hfirst, hrest⟩ := List.pairwise_cons.mp h
    cases rest with
    | nil =>
      have hcount : [first].count name ≤ 1 := List.count_le_length
      simpa using Nat.lt_succ_of_le hcount
    | cons next rest =>
      rw [List.tail_cons, List.zip_cons_cons, List.mem_cons, Prod.mk.injEq]
      by_cases hname : name = first
      · subst hname
        rw [List.count_cons_self, Nat.succ_le_succ_iff, List.one_le_count_iff]
        constructor
        · rintro (⟨-, hnext⟩ | hpair)
          · exact hnext ▸ List.mem_cons_self
          · exact (List.of_mem_zip hpair).1
        · intro hmem
          refine .inl ⟨rfl, ?_⟩
          rcases List.mem_cons.mp hmem with hnext | hlater
          · exact hnext
          · -- What stands between two equal names is equal to them.
            have hbefore := hfirst next List.mem_cons_self
            have hbehind := (List.pairwise_cons.mp hrest).1 name hlater
            exact Std.LawfulEqCmp.eq_of_compare (Std.OrientedCmp.isLE_antisymm hbefore hbehind)
      · rw [List.count_cons_of_ne (Ne.symm hname), ← ih hrest]
        exact or_iff_right fun h ↦ hname h.1

/-! ## The scan of neighbours -/

theorem mem_noteRepeated {noted : List String} {neighbours : String × String} :
    name ∈ noteRepeated noted neighbours ↔ name ∈ noted ∨ (name, name) = neighbours := by
  obtain ⟨first, next⟩ := neighbours
  rw [noteRepeated, Prod.mk.injEq]
  split
  · rename_i hnew
    dsimp only at hnew
    rw [List.mem_append, List.mem_singleton, ← hnew.1, and_self]
  · -- What is not noted again is noted already.
    rename_i hold
    refine ⟨.inl, fun h ↦ h.elim id ?_⟩
    rintro ⟨rfl, rfl⟩
    exact List.mem_of_getLast? (by simpa using hold)

theorem mem_foldl_noteRepeated {noted : List String} {pairs : List (String × String)} :
    name ∈ pairs.foldl noteRepeated noted ↔ name ∈ noted ∨ (name, name) ∈ pairs := by
  induction pairs generalizing noted with
  | nil => simp
  | cons pair pairs ih => rw [List.foldl_cons, ih, mem_noteRepeated, List.mem_cons, or_assoc]

/-- A relation is joined if it is a many-to-many relation and two conditions outside of negations
begin with it. -/
theorem Predicate.mem_joinedRoots {p : Predicate} {m : Model} {root : String} :
    root ∈ p.joinedRoots m ↔
      m.isManyToMany root = true ∧ 2 ≤ (p.positive.map Condition.root).count root := by
  rw [joinedRoots, mem_foldl_noteRepeated, or_iff_right List.not_mem_nil,
    (sortedNames_foldr_insertName _).mem_zip_tail_iff, (foldr_insertName_perm _).count_eq]
  cases hmany : m.isManyToMany root with
  | true => rw [List.count_filter hmany, and_iff_right rfl]
  | false =>
    have hcount : ((p.positive.map Condition.root).filter m.isManyToMany).count root = 0 :=
      List.count_eq_zero.mpr fun h ↦ by simp [hmany] at h
    rw [hcount]
    simp

end RowAccess

import RowAccess.Proofs.Evaluation.Conjunction
import RowAccess.Proofs.Evaluation.Disjunction
import RowAccess.Proofs.Evaluation.Joining

/-!
# Parts that speak of different relations

A conjunction chooses its related rows relation by relation. So parts that have no many-to-many
relation in common do not notice each other, and the conjunction holds where each of them does
(`holds_mkAll_pair`). Parts that all speak of the same relation are asked of one related row, which
has to satisfy all of them (`holds_mkAll_iff_related`); a part that is evaluated on its own only
needs some related row that satisfies it.
-/

namespace RowAccess

namespace Predicate

/-- Two predicates have no many-to-many relation in common, at least outside of negations. -/
def Separate (m : Model) (p q : Predicate) : Prop :=
  ∀ c ∈ p.positive, ∀ d ∈ q.positive, m.isManyToMany c.root = true → c.root ≠ d.root

/-- All conditions of a predicate begin with one relation. -/
def SpeaksOf (p : Predicate) (root : String) : Prop := ∀ c ∈ p.positive, c.root = root

theorem Separate.symm {m : Model} {p q : Predicate} (h : p.Separate m q) : q.Separate m p :=
  fun c hc d hd hmany e ↦ h d hd c hc (e ▸ hmany) e.symm

theorem exists_of_mem_joinedRoots {m : Model} {p : Predicate} {root : String}
    (h : root ∈ p.joinedRoots m) : ∃ c ∈ p.positive, c.root = root := by
  have hcount := (mem_joinedRoots.mp h).2
  exact List.mem_map.mp (List.count_pos_iff.mp (by omega))

theorem Separate.not_mem_joinedRoots {m : Model} {p q : Predicate} (h : p.Separate m q)
    {c : Condition} (hc : c ∈ p.positive) : c.root ∉ q.joinedRoots m := by
  intro hjoined
  obtain ⟨d, hd, hroot⟩ := exists_of_mem_joinedRoots hjoined
  exact h c hc d hd (mem_joinedRoots.mp hjoined).1 hroot.symm

theorem Separate.mem_joinedRoots_mkAll {m : Model} {p q : Predicate} (h : p.Separate m q)
    {root : String} :
    root ∈ (mkAll [p, q]).joinedRoots m ↔ root ∈ p.joinedRoots m ∨ root ∈ q.joinedRoots m := by
  simp only [mem_joinedRoots, positive_mkAll, List.flatMap_cons, List.flatMap_nil, List.append_nil,
    List.map_append, List.count_append, ← and_or_left]
  refine and_congr_right fun hmany ↦ ⟨fun hcount ↦ ?_, fun hcount ↦ by omega⟩
  -- Conditions on both sides would share the relation, so only one side has any.
  have hone : (p.positive.map Condition.root).count root = 0 ∨
      (q.positive.map Condition.root).count root = 0 := by
    refine Nat.eq_zero_or_pos _ |>.imp_right fun hp ↦ ?_
    refine List.count_eq_zero.mpr fun hq ↦ ?_
    obtain ⟨c, hc, rfl⟩ := List.mem_map.mp (List.count_pos_iff.mp hp)
    obtain ⟨d, hd, hroot⟩ := List.mem_map.mp hq
    exact h c hc d hd hmany hroot.symm
  omega

theorem mem_joinedRoots_congr {m : Model} {p q : Predicate} (h : p.positive.Perm q.positive)
    {root : String} : root ∈ p.joinedRoots m ↔ root ∈ q.joinedRoots m := by
  rw [mem_joinedRoots, mem_joinedRoots, (h.map Condition.root).count_eq]

/-- The only relation that a predicate speaks of is bound by the choice of a related row. -/
theorem SpeaksOf.binds {m : Model} {row : Row} {p : Predicate} {root : String} {id : Json}
    (h : p.SpeaksOf root) (hne : p.positive ≠ []) (hmany : m.isManyToMany root = true)
    (hid : id ∈ relatedIds (row.valueOf root)) : p.Binds m row 1 [(root, some id)] := by
  have hroots : ∀ other, other ∈ [root] ↔
      m.isManyToMany other = true ∧ 1 ≤ (p.positive.map Condition.root).count other := by
    intro other
    rw [List.mem_singleton, Nat.one_le_iff_ne_zero, ← Nat.pos_iff_ne_zero, List.count_pos_iff]
    constructor
    · rintro rfl
      obtain ⟨c, hc⟩ := List.exists_mem_of_ne_nil p.positive hne
      exact ⟨hmany, h c hc ▸ List.mem_map_of_mem hc⟩
    · rintro ⟨-, hother⟩
      obtain ⟨c, hc, rfl⟩ := List.mem_map.mp hother
      exact h c hc
  have hoffers : row.Offers [root] fun _ ↦ some id := by
    intro other hother
    rw [List.mem_singleton.mp hother]
    exact Row.some_mem_choicesFor.mpr hid
  exact binds_chosen hroots hoffers

end Predicate

namespace Store

variable (s : Store) {m : Model} {row : Row}

theorem satisfies_chosen_congr {p : Predicate} {roots others : List String}
    {pick pick' : String → Choice}
    (h : ∀ c ∈ p.positive, m.isManyToMany c.root = true →
      (c.root ∈ roots ↔ c.root ∈ others) ∧ (c.root ∈ roots → pick c.root = pick' c.root)) :
    s.satisfies m row (chosen roots pick) p = s.satisfies m row (chosen others pick') p := by
  refine s.satisfies_congr fun c hc hmany ↦ ?_
  obtain ⟨hroots, hpick⟩ := h c hc hmany
  rw [lookup_chosen, lookup_chosen]
  by_cases hroot : c.root ∈ roots
  · rw [if_pos hroot, if_pos (hroots.mp hroot), hpick hroot]
  · rw [if_neg hroot, if_neg fun hother ↦ hroot (hroots.mpr hother)]

/-- Predicates with the same conditions, in whatever order, that are satisfied under the same
choices hold of the same rows. -/
theorem holds_congr {p q : Predicate} (hpositive : p.positive.Perm q.positive)
    (hsatisfies : ∀ choices, s.satisfies m row choices p = s.satisfies m row choices q) :
    s.holds m row p = s.holds m row q := by
  have hchosen : ∀ pick, s.satisfies m row (chosen (p.joinedRoots m) pick) p
      = s.satisfies m row (chosen (q.joinedRoots m) pick) q := fun pick ↦ by
    rw [hsatisfies]
    exact s.satisfies_chosen_congr fun c _ _ ↦
      ⟨Predicate.mem_joinedRoots_congr hpositive, fun _ ↦ rfl⟩
  rw [Bool.eq_iff_iff, holds_iff, holds_iff]
  refine exists_congr fun pick ↦ ?_
  rw [hchosen, Row.Offers, Row.Offers]
  simp only [Predicate.mem_joinedRoots_congr hpositive]

theorem holds_mkAll_perm {parts others : List Predicate} (h : parts.Perm others) :
    s.holds m row (.mkAll parts) = s.holds m row (.mkAll others) := by
  refine s.holds_congr ?_ fun choices ↦ ?_
  · rw [Predicate.positive_mkAll, Predicate.positive_mkAll]
    exact h.flatMap_right Predicate.positive
  · rw [satisfies_mkAll, satisfies_mkAll]
    exact h.all_eq

/-- Predicates without a many-to-many relation in common hold together where each of them does. -/
theorem holds_mkAll_pair {p q : Predicate} (h : p.Separate m q) :
    s.holds m row (.mkAll [p, q]) = (s.holds m row p && s.holds m row q) := by
  -- Each of the two sees the choices for its own relations only.
  have hp : ∀ pick, s.satisfies m row (chosen ((Predicate.mkAll [p, q]).joinedRoots m) pick) p
      = s.satisfies m row (chosen (p.joinedRoots m) pick) p := fun pick ↦
    s.satisfies_chosen_congr fun c hc _ ↦
      ⟨h.mem_joinedRoots_mkAll.trans (or_iff_left (h.not_mem_joinedRoots hc)), fun _ ↦ rfl⟩
  have hq : ∀ pick, s.satisfies m row (chosen ((Predicate.mkAll [p, q]).joinedRoots m) pick) q
      = s.satisfies m row (chosen (q.joinedRoots m) pick) q := fun pick ↦
    s.satisfies_chosen_congr fun c hc _ ↦
      ⟨h.mem_joinedRoots_mkAll.trans (or_iff_right (h.symm.not_mem_joinedRoots hc)), fun _ ↦ rfl⟩
  rw [Bool.eq_iff_iff, Bool.and_eq_true, holds_iff, holds_iff, holds_iff]
  simp only [satisfies_mkAll, List.all_cons, List.all_nil, Bool.and_true, Bool.and_eq_true, hp, hq]
  constructor
  · rintro ⟨pick, hoffers, hholds⟩
    exact ⟨⟨pick, fun root hroot ↦ hoffers root (h.mem_joinedRoots_mkAll.mpr (.inl hroot)),
      hholds.1⟩, pick, fun root hroot ↦ hoffers root (h.mem_joinedRoots_mkAll.mpr (.inr hroot)),
      hholds.2⟩
  · rintro ⟨⟨left, hleft, hholdsLeft⟩, right, hright, hholdsRight⟩
    let pick : String → Choice := fun root ↦
      if root ∈ p.joinedRoots m then left root else right root
    have hpickLeft : ∀ root ∈ p.joinedRoots m, pick root = left root := fun root hroot ↦
      if_pos hroot
    have hpickRight : ∀ root ∉ p.joinedRoots m, pick root = right root := fun root hroot ↦
      if_neg hroot
    refine ⟨pick, fun root hroot ↦ ?_, ?_, ?_⟩
    · by_cases hmem : root ∈ p.joinedRoots m
      · exact hpickLeft root hmem ▸ hleft root hmem
      · exact hpickRight root hmem ▸
          hright root ((h.mem_joinedRoots_mkAll.mp hroot).resolve_left hmem)
    · rwa [s.satisfies_chosen_congr fun c _ _ ↦ ⟨Iff.rfl, hpickLeft c.root⟩]
    · rwa [s.satisfies_chosen_congr fun c hc _ ↦
        ⟨Iff.rfl, fun _ ↦ hpickRight c.root (h.symm.not_mem_joinedRoots hc)⟩]

/-- Parts that all speak of one many-to-many relation hold together where they are satisfied by
one and the same related row. -/
theorem holds_mkAll_iff_related {parts : List Predicate} {root : String}
    (hmany : m.isManyToMany root = true) (hne : parts ≠ [])
    (hdisjunction : ∀ part ∈ parts, part.IsDisjunction)
    (hspeaks : ∀ part ∈ parts, part.SpeaksOf root) :
    s.holds m row (.mkAll parts) = true ↔
      ∃ id ∈ relatedIds (row.valueOf root),
        ∀ part ∈ parts, s.satisfies m row [(root, some id)] part = true := by
  have hpositive : ∀ c ∈ (Predicate.mkAll parts).positive,
      c.root = root ∧ c.holdsOf .null = false := by
    rw [Predicate.positive_mkAll]
    intro c hc
    obtain ⟨part, hpart, hmem⟩ := List.mem_flatMap.mp hc
    exact ⟨hspeaks part hpart c hmem, (hdisjunction part hpart).strict c hmem⟩
  -- Where the parts are satisfied, one of their conditions is met.
  have hmet : ∀ choices, (∀ part ∈ parts, s.satisfies m row choices part = true) →
      ∃ c ∈ (Predicate.mkAll parts).positive, s.meets m row choices c = true := by
    intro choices hall
    obtain ⟨part, hpart⟩ := List.exists_mem_of_ne_nil parts hne
    have hholds := hall part hpart
    rw [(hdisjunction part hpart).satisfies, List.any_eq_true] at hholds
    obtain ⟨c, hc, hmeets⟩ := hholds
    exact ⟨c, (Predicate.positive_sublist_mkAll hpart).subset hc, hmeets⟩
  rw [holds_iff_joining_two]
  constructor
  · intro h
    obtain ⟨choices, hbinds, hholds⟩ := h.one_of_two
    rw [satisfies_mkAll, List.all_eq_true] at hholds
    obtain ⟨c, hc, hmeets⟩ := hmet choices hholds
    obtain ⟨rfl, hnull⟩ := hpositive c hc
    have hbound := (hbinds.bound c.root).mpr
      ⟨hmany, List.count_pos_iff.mpr (List.mem_map_of_mem hc)⟩
    obtain ⟨choice, hchoice⟩ := Option.isSome_iff_exists.mp hbound
    cases choice with
    | none => exact absurd hmeets (by rw [s.meets_of_no_choice hmany hchoice hnull]; decide)
    | some id =>
      refine ⟨id, Row.some_mem_choicesFor.mp (hbinds.offered c.root _ hchoice),
        fun part hpart ↦ ?_⟩
      rw [← hholds part hpart]
      refine s.satisfies_congr fun d hd _ ↦ ?_
      rw [hspeaks part hpart d hd, hchoice, List.lookup_cons_self]
  · rintro ⟨id, hid, hholds⟩
    obtain ⟨c, hc, -⟩ := hmet _ hholds
    have hbinds := Predicate.SpeaksOf.binds (fun d hd ↦ (hpositive d hd).1)
      (List.ne_nil_of_mem hc) hmany hid
    refine HoldsJoining.two_of_one (fun d hd _ ↦ ?_) ⟨_, hbinds, ?_⟩
    · rw [← Condition.holdsOf_null_iff, (hpositive d hd).2]
      exact Bool.false_ne_true
    · rw [satisfies_mkAll, List.all_eq_true]
      exact hholds

/-- A single part on a many-to-many relation holds where some related row satisfies it. -/
theorem holds_iff_related {p : Predicate} {root : String} (hmany : m.isManyToMany root = true)
    (hdisjunction : p.IsDisjunction) (hspeaks : p.SpeaksOf root) :
    s.holds m row p = true ↔
      ∃ id ∈ relatedIds (row.valueOf root), s.satisfies m row [(root, some id)] p = true := by
  have hsame : s.holds m row p = s.holds m row (.mkAll [p]) := by
    refine s.holds_congr ?_ fun choices ↦ ?_
    · rw [Predicate.positive_mkAll, List.flatMap_singleton]
    · rw [satisfies_mkAll, List.all_cons, List.all_nil, Bool.and_true]
  rw [hsame, s.holds_mkAll_iff_related hmany (List.cons_ne_nil p [])
    (List.forall_mem_singleton.mpr hdisjunction) (List.forall_mem_singleton.mpr hspeaks)]
  simp only [List.forall_mem_singleton]

end Store

end RowAccess

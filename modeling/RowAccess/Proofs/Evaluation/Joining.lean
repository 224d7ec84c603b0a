import RowAccess.Proofs.Evaluation.Choices

/-!
# Which relations need a choice

The plain reading of a predicate chooses one related row for every many-to-many relation that its
conditions outside of negations begin with, and asks all of these conditions of the chosen rows. A
search over such choices multiplies over the relations, so evaluation chooses only for relations
that two conditions share, and leaves a relation with a single condition alone: that condition asks
for some related row anyway.

Both readings are instances of one definition, `Store.HoldsJoining`, which says how many conditions
a relation needs to have a choice. Choosing more never loses a row (`HoldsJoining.one_of_two`):
whatever the only condition of a relation found among all related rows, it finds again under a
suitable choice. Choosing more may gain a row, but only through null. A chosen row may be missing,
or lead nowhere, and then null stands in for what was not reached; among all related rows there may
be one that leads somewhere. Without conditions that ask for null the readings agree.
-/

namespace RowAccess

theorem Condition.holdsOf_null_iff {c : Condition} :
    c.holdsOf .null = true ↔ c.lookup = .exact ∧ c.operand = .null := by
  obtain ⟨path, lookup, operand⟩ := c
  cases lookup <;> cases operand <;>
    simp [holdsOf, Operand.matchesStored, compareText, Json.comparable?, compareOrder,
      Operand.compareStored, compareLength, containsAll]

theorem eq_of_count_map_lt_two {α β : Type} [BEq β] [LawfulBEq β] {f : α → β} {items : List α}
    {b : β} (h : (items.map f).count b < 2) {x y : α} (hx : x ∈ items) (hy : y ∈ items)
    (hfx : f x = b) (hfy : f y = b) : x = y := by
  obtain ⟨before, behind, rfl⟩ := List.append_of_mem hx
  rw [List.map_append, List.map_cons, List.count_append, hfx, List.count_cons_self] at h
  have hnone : ∀ others : List α, (others.map f).count b = 0 → y ∉ others :=
    fun others hcount hmem ↦ List.count_eq_zero.mp hcount (List.mem_map.mpr ⟨y, hmem, hfy⟩)
  rcases List.mem_append.mp hy with hmem | hmem
  · exact absurd hmem (hnone before (by omega))
  · exact ((List.mem_cons.mp hmem).resolve_right (hnone behind (by omega))).symm

namespace Predicate

/-- Choices bind exactly the many-to-many relations that at least so many conditions outside of
negations begin with, each to one of the related ids of the row, or to none if it has none. -/
structure Binds (p : Predicate) (m : Model) (row : Row) (least : Nat)
    (choices : List (String × Choice)) : Prop where
  bound : ∀ root, (choices.lookup root).isSome = true ↔
    m.isManyToMany root = true ∧ least ≤ (p.positive.map Condition.root).count root
  offered : ∀ root choice, choices.lookup root = some choice → choice ∈ row.choicesFor root

variable {p : Predicate} {m : Model} {row : Row} {least : Nat}

theorem Binds.lookup_eq_none {choices : List (String × Choice)} (h : p.Binds m row least choices)
    {root : String} (hroot : ¬(m.isManyToMany root = true ∧
      least ≤ (p.positive.map Condition.root).count root)) : choices.lookup root = none := by
  rw [← h.bound] at hroot
  exact Option.not_isSome_iff_eq_none.mp hroot

theorem binds_chosen {roots : List String} {pick : String → Choice}
    (hroots : ∀ root, root ∈ roots ↔
      m.isManyToMany root = true ∧ least ≤ (p.positive.map Condition.root).count root)
    (hoffers : row.Offers roots pick) : p.Binds m row least (chosen roots pick) where
  bound root := by
    rw [lookup_chosen, ← hroots]
    split
    · next hroot => simp [hroot]
    · next hroot => simp [hroot]
  offered := Store.lookup_chosen_offered hoffers

theorem Binds.exists_pick {choices : List (String × Choice)} (h : p.Binds m row least choices)
    {roots : List String} (hroots : ∀ root ∈ roots,
      m.isManyToMany root = true ∧ least ≤ (p.positive.map Condition.root).count root) :
    ∃ pick, row.Offers roots pick ∧ ∀ root ∈ roots, choices.lookup root = some (pick root) := by
  have hpick : ∀ root ∈ roots,
      choices.lookup root = some ((choices.lookup root).getD none) := by
    intro root hroot
    obtain ⟨choice, hchoice⟩ := Option.isSome_iff_exists.mp ((h.bound root).mpr (hroots root hroot))
    rw [hchoice, Option.getD_some]
  exact ⟨fun root ↦ (choices.lookup root).getD none,
    fun root hroot ↦ h.offered root _ (hpick root hroot), hpick⟩

end Predicate

namespace Store

/-- Whether a predicate is satisfied under some choice of a related row for every many-to-many
relation that at least so many of its conditions outside of negations begin with. -/
def HoldsJoining (s : Store) (m : Model) (row : Row) (p : Predicate) (least : Nat) : Prop :=
  ∃ choices, p.Binds m row least choices ∧ s.satisfies m row choices p = true

variable {s : Store} {m : Model} {row : Row} {p : Predicate}

/-- Evaluation chooses for the relations that two conditions share. -/
theorem holds_iff_joining_two : s.holds m row p = true ↔ s.HoldsJoining m row p 2 := by
  rw [s.holds_iff]
  constructor
  · rintro ⟨pick, hoffers, hholds⟩
    exact ⟨_, Predicate.binds_chosen (fun _ ↦ Predicate.mem_joinedRoots) hoffers, hholds⟩
  · rintro ⟨choices, hbinds, hholds⟩
    obtain ⟨pick, hoffers, hpick⟩ :=
      hbinds.exists_pick fun root hroot ↦ Predicate.mem_joinedRoots.mp hroot
    refine ⟨pick, hoffers, ?_⟩
    rw [← hholds]
    refine s.satisfies_congr fun c _ _ ↦ ?_
    rw [lookup_chosen]
    split
    · next hjoined => exact (hpick c.root hjoined).symm
    · next hfree =>
      rw [Predicate.mem_joinedRoots] at hfree
      exact (hbinds.lookup_eq_none hfree).symm

/-- The only condition on a relation holds under a suitable choice, if it holds without one. -/
theorem exists_choice_of_single (s : Store) (m : Model) (row : Row) (p : Predicate)
    (root : String) : ∃ choice ∈ row.choicesFor root,
      (p.positive.map Condition.root).count root < 2 → m.isManyToMany root = true →
        ∀ c ∈ p.positive, c.root = root → s.meets m row [] c = true →
          ∀ choices : List (String × Choice), choices.lookup root = some choice →
            s.meets m row choices c = true := by
  by_cases hfound : m.isManyToMany root = true ∧
    ∃ c ∈ p.positive, c.root = root ∧ s.meets m row [] c = true
  · obtain ⟨hmany, c, hc, rfl, hmeets⟩ := hfound
    obtain ⟨choice, hchoice, hbound⟩ := s.exists_choice_of_meets hmany hmeets
    refine ⟨choice, hchoice, fun hsingle _ other hother hroot _ choices hlookup ↦ ?_⟩
    rw [eq_of_count_map_lt_two hsingle hother hc hroot rfl]
    exact hbound choices hlookup
  · refine ⟨row.someChoiceFor root, row.someChoiceFor_mem root, fun _ hmany c hc hroot hmeets ↦ ?_⟩
    exact absurd ⟨hmany, c, hc, hroot, hmeets⟩ hfound

/-- What holds under choices for the shared relations holds under choices for all of them. -/
theorem HoldsJoining.one_of_two (h : s.HoldsJoining m row p 2) : s.HoldsJoining m row p 1 := by
  obtain ⟨choices, hbinds, hholds⟩ := h
  obtain ⟨single, hsingle⟩ := Classical.axiomOfChoice (s.exists_choice_of_single m row p)
  -- A shared relation keeps its choice, and its only condition chooses for any other one.
  let pick : String → Choice := fun root ↦ (choices.lookup root).getD (single root)
  let roots := (p.positive.map Condition.root).filter m.isManyToMany
  have hroots : ∀ root, root ∈ roots ↔
      m.isManyToMany root = true ∧ 1 ≤ (p.positive.map Condition.root).count root := fun root ↦ by
    rw [List.mem_filter, ← List.count_pos_iff, and_comm]
    rfl
  have hoffers : row.Offers roots pick := by
    intro root _
    cases hlookup : choices.lookup root with
    | none => simpa only [pick, hlookup, Option.getD_none] using (hsingle root).1
    | some choice =>
      simpa only [pick, hlookup, Option.getD_some] using hbinds.offered root choice hlookup
  refine ⟨_, Predicate.binds_chosen hroots hoffers, s.satisfies_mono (fun c hc hmeets ↦ ?_) hholds⟩
  cases hmany : m.isManyToMany c.root with
  | false =>
    rwa [s.meets_congr choices fun htrue ↦ absurd (hmany.symm.trans htrue) Bool.false_ne_true]
  | true =>
    have hroot : c.root ∈ roots := List.mem_filter.mpr ⟨List.mem_map_of_mem hc, hmany⟩
    have hlookup := lookup_chosen roots pick c.root
    rw [if_pos hroot] at hlookup
    cases hold : choices.lookup c.root with
    | some choice =>
      have hpick : pick c.root = choice := by simp only [pick, hold, Option.getD_some]
      rwa [s.meets_congr choices fun _ ↦ by rw [hlookup, hpick, hold]]
    | none =>
      have hcount : (p.positive.map Condition.root).count c.root < 2 := by
        refine Nat.lt_of_not_le fun hshared ↦ ?_
        have hbound := (hbinds.bound c.root).mpr ⟨hmany, hshared⟩
        rw [hold] at hbound
        exact absurd hbound Bool.false_ne_true
      have hpick : pick c.root = single c.root := by simp only [pick, hold, Option.getD_none]
      rw [hpick] at hlookup
      rw [s.meets_congr [] fun _ ↦ by rw [hold, List.lookup_nil]] at hmeets
      exact (hsingle c.root).2 hcount hmany c hc rfl hmeets _ hlookup

/-- What holds under choices for all relations holds under choices for the shared ones, unless a
condition on a relation asks for null. -/
theorem HoldsJoining.two_of_one (hnull : ∀ c ∈ p.positive, m.isManyToMany c.root = true →
      ¬(c.lookup = .exact ∧ c.operand = .null))
    (h : s.HoldsJoining m row p 1) : s.HoldsJoining m row p 2 := by
  obtain ⟨choices, hbinds, hholds⟩ := h
  obtain ⟨pick, hoffers, hpick⟩ := hbinds.exists_pick fun root hroot ↦
    (Predicate.mem_joinedRoots.mp hroot).imp_right Nat.le_of_succ_le
  refine ⟨_, Predicate.binds_chosen (fun _ ↦ Predicate.mem_joinedRoots) hoffers,
    s.satisfies_mono (fun c hc hmeets ↦ ?_) hholds⟩
  by_cases hjoined : c.root ∈ p.joinedRoots m
  · rwa [s.meets_congr choices fun _ ↦ by
      rw [lookup_chosen, if_pos hjoined, hpick c.root hjoined]]
  · rw [s.meets_congr [] fun _ ↦ by rw [lookup_chosen, if_neg hjoined, List.lookup_nil]]
    cases hmany : m.isManyToMany c.root with
    | false =>
      rwa [s.meets_congr choices fun htrue ↦ absurd (hmany.symm.trans htrue) Bool.false_ne_true]
    | true =>
      have hstrict : c.holdsOf .null = false := by
        rw [← Bool.not_eq_true, Condition.holdsOf_null_iff]
        exact hnull c hc hmany
      exact s.meets_of_meets_chosen hstrict (hbinds.offered c.root) hmeets

/-- A predicate holds of a row exactly if it is satisfied under one choice for every many-to-many
relation that two of its conditions outside of negations share; negations see no choice. Then it is
satisfied under choices for all relations of these conditions as well, and the converse fails only
if one of them asks for null. -/
theorem holds_iff_holdsJoining (s : Store) (m : Model) (row : Row) (p : Predicate) :
    (∀ choices part, s.satisfies m row choices (.not part) = !s.satisfies m row [] part) ∧
      (s.holds m row p = true ↔ s.HoldsJoining m row p 2) ∧
      (s.holds m row p = true → s.HoldsJoining m row p 1) ∧
      ((∀ c ∈ p.positive, m.isManyToMany c.root = true →
          ¬(c.lookup = .exact ∧ c.operand = .null)) →
        (s.holds m row p = true ↔ s.HoldsJoining m row p 1)) := by
  refine ⟨fun choices part ↦ s.satisfies_not m row choices part, holds_iff_joining_two,
    fun h ↦ (holds_iff_joining_two.mp h).one_of_two, fun hnull ↦ ?_⟩
  rw [holds_iff_joining_two]
  exact ⟨HoldsJoining.one_of_two, HoldsJoining.two_of_one hnull⟩

end Store

/-! ## Null behind a missing row -/

namespace Folders

/-- Folders with their parts, which are folders. -/
def folder : Model where
  key := ⟨"core", "folder"⟩
  tier := .public
  fields := implicitFields.insertAll [("parts", ⟨.manyToMany, some ⟨"core", "folder"⟩⟩)]

def torn : Row := .ofList [("id", .int 4), ("parts", .array [.int 1, .int 2, .int 3])]

/-- The store of the folder and of its parts, of which the first one is missing. -/
def store : Store where
  registry := {
    settings := {}
    identityModel := ⟨"auth", "user"⟩
    models := [folder]
    distinct := by decide }
  tables := [(folder.key,
    ⟨[(2, .ofList [("id", .int 2)]), (3, .ofList [("id", .int 3)]), (4, torn)], by decide⟩)]
  covers := rfl

theorem get?_folder : store.registry.get? ⟨"core", "folder"⟩ = some folder :=
  (store.registry.get?_eq_some_iff _ _).mpr ⟨List.mem_singleton_self folder, rfl⟩

theorem torn_mem {t : Table} (h : store.table? folder.key = some t) : torn ∈ t.rows := by
  obtain rfl : ⟨_, _⟩ = t := Option.some.inj h
  exact List.mem_cons_of_mem _ (List.mem_cons_of_mem _ List.mem_cons_self)

/-- No stored part of the folder has a null id, but the missing one reaches nothing, and so null. -/
theorem torn_holdsJoining_null :
    store.holds folder torn (.eq "parts__id" .null) = false ∧
      store.HoldsJoining folder torn (.eq "parts__id" .null) 1 := by
  let pick : String → Choice := fun _ ↦ some (.int 1)
  refine ⟨by decide +kernel, chosen ["parts"] pick, Predicate.binds_chosen ?_ ?_, by decide +kernel⟩
  · intro root
    have hroot : pathRoot "parts__id" = "parts" := by decide +kernel
    have hmany : folder.isManyToMany "parts" = true := by decide +kernel
    rw [Predicate.eq, Predicate.compare, Predicate.positive_leaf, List.map_singleton,
      Condition.root, hroot, List.count_singleton, List.mem_singleton]
    by_cases h : root = "parts"
    · simp [h, hmany]
    · simp [h, Ne.symm h]
  · intro root hroot
    rw [List.mem_singleton.mp hroot, Row.choicesFor]
    exact List.mem_cons_self

end Folders

end RowAccess

import Mathlib.Data.List.Perm.Subperm
import RowAccess.Json.Reader

/-!
# Equality of JSON values

Two objects are the same value if every name has the same value in both, or has none in both; the
order of the fields does not matter (`Json.same_object_iff`). A value is the same as itself as long
as no object in it has a name twice, since a second entry under a name is never looked up. The
reader gives such values only, because it gathers the fields of an object in a map.
-/

namespace RowAccess

namespace Json

/-! ## Names that stand once -/

/-- No object in a value has a name twice. -/
inductive Keyed : Json → Prop
  | null : Keyed null
  | bool (b : Bool) : Keyed (bool b)
  | number (n : Number) : Keyed (number n)
  | text (s : String) : Keyed (text s)
  | array {items : List Json} (items_keyed : ∀ item ∈ items, item.Keyed) : Keyed (array items)
  | object {fields : List (String × Json)} (nodup : (fields.map Prod.fst).Nodup)
      (fields_keyed : ∀ field ∈ fields, field.2.Keyed) : Keyed (object fields)

section Objects

variable {fields others : List (String × Json)}

theorem lookup_eq_none_iff_not_mem {name : String} :
    fields.lookup name = none ↔ name ∉ fields.map Prod.fst := by
  simp only [List.lookup_eq_none_iff, bne_iff_ne, List.mem_map, not_exists, not_and, ne_eq,
    eq_comm (a := name)]

end Objects

/-! ## Values that were read -/

theorem keyed_of_takeWord? {word : String} {value v : Json} {cs rest : List Char}
    (hvalue : value.Keyed) (h : takeWord? word value cs = some (v, rest)) : v.Keyed := by
  rw [takeWord?, Option.ite_none_right_eq_some] at h
  obtain ⟨rfl, -⟩ := Prod.mk.inj (Option.some.inj h.2)
  exact hvalue

theorem keyed_of_insert {fields : Ordered Json} (h : ∀ field ∈ fields.entries, field.2.Keyed)
    (name : String) {value : Json} (hvalue : value.Keyed) :
    ∀ field ∈ (fields.insert name value).entries, field.2.Keyed := by
  intro field hfield
  have hlookup := (lookup_eq_some_iff_mem (fields.insert name value).nodup).mpr hfield
  rw [← Ordered.get?, Ordered.get?_insert] at hlookup
  by_cases hname : field.1 = name
  · rw [if_pos hname] at hlookup
    exact Option.some.inj hlookup ▸ hvalue
  · rw [if_neg hname] at hlookup
    exact h field ((lookup_eq_some_iff_mem fields.nodup).mp hlookup)

/-- What is read at the start of a text with some fuel has no object with a name twice, if what was
read before has none. -/
structure ReadsKeyed (fuel : Nat) : Prop where
  value : ∀ {depth : Nat} {cs rest : List Char} {v : Json},
    takeValue? fuel depth cs = some (v, rest) → v.Keyed
  items : ∀ {depth : Nat} {done items : List Json} {cs rest : List Char},
    (∀ item ∈ done, item.Keyed) → takeItems? fuel depth done cs = some (items, rest) →
      ∀ item ∈ items, item.Keyed
  fields : ∀ {depth : Nat} {done fields : Ordered Json} {cs rest : List Char},
    (∀ field ∈ done.entries, field.2.Keyed) →
      takeFields? fuel depth done cs = some (fields, rest) → ∀ field ∈ fields.entries, field.2.Keyed

section Reader

variable {fuel depth : Nat} {cs rest : List Char}

theorem ReadsKeyed.value_succ (ih : ReadsKeyed fuel) {v : Json}
    (h : takeValue? (fuel + 1) depth cs = some (v, rest)) : v.Keyed := by
  rw [takeValue?] at h
  split at h
  · exact nomatch h
  · -- a text
    obtain ⟨⟨s, rest'⟩, -, hpair⟩ := Option.map_eq_some_iff.mp h
    obtain ⟨rfl, -⟩ := Prod.mk.inj hpair
    exact .text s
  · -- an array
    split at h
    · exact nomatch h
    · split at h
      · obtain ⟨rfl, -⟩ := Prod.mk.inj (Option.some.inj h)
        exact .array (List.forall_mem_nil _)
      · obtain ⟨⟨items, rest'⟩, hread, hpair⟩ := Option.map_eq_some_iff.mp h
        obtain ⟨rfl, -⟩ := Prod.mk.inj hpair
        exact .array (ih.items (List.forall_mem_nil _) hread)
  · -- an object
    split at h
    · exact nomatch h
    · split at h
      · obtain ⟨rfl, -⟩ := Prod.mk.inj (Option.some.inj h)
        exact .object .nil (List.forall_mem_nil _)
      · obtain ⟨⟨fields, rest'⟩, hread, hpair⟩ := Option.map_eq_some_iff.mp h
        obtain ⟨rfl, -⟩ := Prod.mk.inj hpair
        exact .object fields.nodup (ih.fields (List.forall_mem_nil _) hread)
  · -- a word or a number
    split at h
    · exact keyed_of_takeWord? (.bool true) h
    · split at h
      · exact keyed_of_takeWord? (.bool false) h
      · split at h
        · exact keyed_of_takeWord? .null h
        · split at h
          · obtain ⟨n, -, hpair⟩ := Option.map_eq_some_iff.mp h
            obtain ⟨rfl, -⟩ := Prod.mk.inj hpair
            exact .number n
          · exact nomatch h

theorem ReadsKeyed.items_succ (ih : ReadsKeyed fuel) {done items : List Json}
    (hdone : ∀ item ∈ done, item.Keyed)
    (h : takeItems? (fuel + 1) depth done cs = some (items, rest)) :
    ∀ item ∈ items, item.Keyed := by
  rw [takeItems?] at h
  split at h
  · exact nomatch h
  · next item rest' hread =>
    have hmore : ∀ v ∈ item :: done, v.Keyed := List.forall_mem_cons.mpr ⟨ih.value hread, hdone⟩
    split at h
    · exact ih.items hmore h
    · obtain ⟨rfl, -⟩ := Prod.mk.inj (Option.some.inj h)
      exact fun v hv ↦ hmore v (List.mem_reverse.mp hv)
    · exact nomatch h

theorem ReadsKeyed.fields_succ (ih : ReadsKeyed fuel) {done fields : Ordered Json}
    (hdone : ∀ field ∈ done.entries, field.2.Keyed)
    (h : takeFields? (fuel + 1) depth done cs = some (fields, rest)) :
    ∀ field ∈ fields.entries, field.2.Keyed := by
  rw [takeFields?] at h
  split at h
  · split at h
    · exact nomatch h
    · next name rest' _ =>
      split at h
      · split at h
        · exact nomatch h
        · next v rest'' hread =>
          have hmore := keyed_of_insert hdone name (ih.value hread)
          split at h
          · exact ih.fields hmore h
          · obtain ⟨rfl, -⟩ := Prod.mk.inj (Option.some.inj h)
            exact hmore
          · exact nomatch h
      · exact nomatch h
  · exact nomatch h

theorem readsKeyed (fuel : Nat) : ReadsKeyed fuel := by
  induction fuel with
  | zero =>
    constructor
    · intro depth cs rest v h
      rw [takeValue?] at h
      exact nomatch h
    · intro depth done items cs rest _ h
      rw [takeItems?] at h
      exact nomatch h
    · intro depth done fields cs rest _ h
      rw [takeFields?] at h
      exact nomatch h
  | succ fuel ih => exact ⟨ih.value_succ, ih.items_succ, ih.fields_succ⟩

end Reader

/-- No object in a value that was read has a name twice. -/
theorem keyed_of_parse? {text : String} {value : Json} (h : parse? text = some value) :
    value.Keyed := by
  rw [parse?] at h
  split at h
  · next v rest hread =>
    rw [Option.ite_none_right_eq_some] at h
    exact Option.some.inj h.2 ▸ (readsKeyed _).value hread
  · exact nomatch h

end Json

end RowAccess

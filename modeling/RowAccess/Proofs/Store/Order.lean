import Mathlib.Data.List.Nodup
import RowAccess.Proofs.Store.Selection

/-!
# Sorting has one result

The order of values looks at several things one after the other: the type, and within a type the
truth value, the number or the text (`Json.order_eq`). Each of them is ordered totally, so their
lexicographic combination is transitive, and so is that of several sort keys, reversed or not, with
the id at the end. Many values are equal in this order, but rows with different ids never are. Hence
there is one way only to list rows of different ids in order (`Row.eq_sorted`), and the order in
which they were found does not show.
-/

namespace RowAccess

/-! ## Values -/

namespace Json

def truth : Json → Bool
  | .bool b => b
  | _ => false

/-- The multiple of the smallest double precision number that numbers are ordered by. -/
def units : Json → Int
  | .number n => n.toBinary64.units
  | _ => 0

def letters : Json → String
  | .text s => s
  | _ => ""

/-- Values are ordered by their types first, and values of one type by what counts for it. -/
theorem order_eq : Json.order = compareLex (compareOn rank)
    (compareLex (compareOn truth) (compareLex (compareOn units) (compareOn letters))) := by
  funext a b
  -- Values of different types are told apart by their ranks, whatever is compared behind these.
  cases a <;> cases b <;>
    simp [order, Binary64.order, compareLex, compareOn, rank, truth, units, letters] <;> rfl

instance : Std.TransCmp Json.order := by
  rw [order_eq]
  infer_instance

theorem order_swap (a b : Json) : (a.order b).swap = b.order a := Std.OrientedCmp.eq_swap.symm

end Json

/-! ## Rows -/

namespace SortKey

theorem order_eq_lt_iff (key : SortKey) (a b : Row) :
    key.order a b = .lt ↔ if key.descending then
        (b.valueOf key.field).order (a.valueOf key.field) = .lt
      else (a.valueOf key.field).order (b.valueOf key.field) = .lt := by
  rw [order]
  cases key.descending with
  | false => rfl
  | true => exact Ordering.swap_eq_lt.trans Std.OrientedCmp.gt_iff_lt

theorem order_eq_eq_iff (key : SortKey) (a b : Row) :
    key.order a b = .eq ↔ (a.valueOf key.field).order (b.valueOf key.field) = .eq := by
  rw [order]
  cases key.descending with
  | false => rfl
  | true => exact Ordering.swap_eq_eq

instance (key : SortKey) : Std.TransCmp key.order := by
  let ascending : Row → Row → Ordering := fun a b ↦
    (a.valueOf key.field).order (b.valueOf key.field)
  have hascending : Std.TransCmp ascending := {
    eq_swap := fun {_ _} ↦ (Json.order_swap _ _).symm
    isLE_trans := fun {_ _ _} ↦ @Std.TransCmp.isLE_trans Json Json.order _ _ _ _ }
  cases hdescending : key.descending with
  | false =>
    have horder : key.order = ascending := by
      funext a b
      rw [order, hdescending, if_neg Bool.false_ne_true]
    rwa [horder]
  | true =>
    have horder : key.order = fun a b ↦ ascending b a := by
      funext a b
      rw [order, hdescending, if_pos rfl, Json.order_swap]
    rw [horder]
    exact Std.TransCmp.opposite

end SortKey

namespace Row

theorem idOrder_eq : Row.idOrder = compareOn Row.id? := by
  funext a b
  rw [idOrder, compareOn]
  cases a.id? <;> cases b.id? <;> rfl

theorem order_cons (key : SortKey) (keys : List SortKey) :
    Row.order (key :: keys) = compareLex key.order (Row.order keys) :=
  rfl

instance (keys : List SortKey) : Std.TransCmp (Row.order keys) := by
  induction keys with
  | nil =>
    have horder : Row.order [] = compareOn Row.id? := idOrder_eq
    rw [horder]
    infer_instance
  | cons key keys ih =>
    rw [order_cons]
    infer_instance

variable {keys : List SortKey} {a b : Row} {rows others : List Row}

theorem order_of_ties (h : ∀ key ∈ keys, key.order a b = .eq) :
    Row.order keys a b = a.idOrder b := by
  induction keys with
  | nil => rfl
  | cons key keys ih =>
    rw [List.forall_mem_cons] at h
    rw [order, h.1, Ordering.eq_then, ih h.2]

/-- The first key that tells two rows apart puts them in order, or else their ids do. -/
theorem order_eq_lt_iff :
    Row.order keys a b = .lt ↔
      (∃ earlier key later, keys = earlier ++ key :: later ∧
        (∀ key ∈ earlier, key.order a b = .eq) ∧ key.order a b = .lt) ∨
      (∀ key ∈ keys, key.order a b = .eq) ∧ a.idOrder b = .lt := by
  induction keys with
  | nil =>
    constructor
    · exact fun h ↦ .inr ⟨nofun, h⟩
    · rintro (⟨earlier, key, later, hkeys, -⟩ | ⟨-, hid⟩)
      · exact absurd hkeys.symm (List.append_ne_nil_of_right_ne_nil _ (List.cons_ne_nil _ _))
      · exact hid
  | cons key keys ih =>
    rw [order, Ordering.then_eq_lt, ih]
    constructor
    · rintro (hlt | ⟨htie, ⟨earlier, first, later, rfl, hties, hlt⟩ | ⟨hties, hid⟩⟩)
      · exact .inl ⟨[], key, keys, rfl, nofun, hlt⟩
      · exact .inl ⟨key :: earlier, first, later, rfl, List.forall_mem_cons.mpr ⟨htie, hties⟩, hlt⟩
      · exact .inr ⟨List.forall_mem_cons.mpr ⟨htie, hties⟩, hid⟩
    · rintro (⟨earlier, first, later, hkeys, hties, hlt⟩ | ⟨hties, hid⟩)
      · cases earlier with
        | nil =>
          obtain ⟨rfl, rfl⟩ := List.cons.inj hkeys
          exact .inl hlt
        | cons next earlier =>
          obtain ⟨rfl, rfl⟩ := List.cons.inj hkeys
          obtain ⟨htie, hties⟩ := List.forall_mem_cons.mp hties
          exact .inr ⟨htie, .inl ⟨earlier, first, later, rfl, hties, hlt⟩⟩
      · obtain ⟨htie, hties⟩ := List.forall_mem_cons.mp hties
        exact .inr ⟨htie, .inr ⟨hties, hid⟩⟩

/-- Only rows of one id are not put in order. -/
theorem id?_eq_of_order_eq (h : Row.order keys a b = .eq) : a.id? = b.id? := by
  induction keys with
  | nil =>
    rw [order, idOrder_eq] at h
    exact Std.compare_eq_iff_eq.mp h
  | cons key keys ih => exact ih (Ordering.then_eq_eq.mp h).2

theorem eq_of_order_eq (hids : (rows.map Row.id?).Nodup) (ha : a ∈ rows) (hb : b ∈ rows)
    (h : Row.order keys a b = .eq) : a = b :=
  List.inj_on_of_nodup_map hids ha hb (id?_eq_of_order_eq h)

/-! ## Sorted lists -/

theorem pairwise_sorted_isLE (keys : List SortKey) (rows : List Row) :
    (Row.sorted keys rows).Pairwise fun a b ↦ (Row.order keys a b).isLE = true := by
  have hle : ∀ o : Ordering, (o != .gt) = o.isLE := by decide
  simp only [sorted, hle]
  refine List.pairwise_mergeSort (fun a b c ↦ Std.TransCmp.isLE_trans) (fun a b ↦ ?_) rows
  have hswap : Row.order keys b a = (Row.order keys a b).swap := Std.OrientedCmp.eq_swap
  rw [Bool.or_eq_true, hswap]
  cases Row.order keys a b <;> decide

/-- Rows of different ids are sorted strictly. -/
theorem pairwise_sorted (keys : List SortKey) (hids : (rows.map Row.id?).Nodup) :
    (Row.sorted keys rows).Pairwise fun a b ↦ Row.order keys a b = .lt := by
  have hsorted : ((Row.sorted keys rows).map Row.id?).Nodup :=
    ((sorted_perm keys rows).map Row.id?).nodup_iff.mpr hids
  have hdistinct : (Row.sorted keys rows).Pairwise fun a b ↦ a.id? ≠ b.id? :=
    List.pairwise_map.mp hsorted
  refine ((pairwise_sorted_isLE keys rows).and hdistinct).imp fun {a b} ⟨hle, hne⟩ ↦ ?_
  cases horder : Row.order keys a b with
  | lt => rfl
  | eq => exact absurd (id?_eq_of_order_eq horder) hne
  | gt =>
    rw [horder] at hle
    exact absurd hle Bool.false_ne_true

/-- There is one way only to list rows strictly in order. -/
theorem eq_of_pairwise_order (hperm : others.Perm rows)
    (hothers : others.Pairwise fun a b ↦ Row.order keys a b = .lt)
    (hrows : rows.Pairwise fun a b ↦ Row.order keys a b = .lt) : others = rows := by
  have hasymm : ∀ a b : Row, Row.order keys a b = .lt → Row.order keys b a ≠ .lt :=
    fun _ _ ↦ Std.OrientedCmp.not_lt_of_lt
  exact hperm.eq_of_pairwise (fun _ _ _ _ hab hba ↦ absurd hba (hasymm _ _ hab)) hothers hrows

theorem eq_sorted (hids : (rows.map Row.id?).Nodup) (hperm : others.Perm rows)
    (hothers : others.Pairwise fun a b ↦ Row.order keys a b = .lt) :
    others = Row.sorted keys rows :=
  eq_of_pairwise_order (hperm.trans (sorted_perm keys rows).symm) hothers
    (pairwise_sorted keys hids)

/-- Sorting has one result. Let the rows of a list have different ids. However mixed their values
are and whatever keys they are sorted by, the comparison is a strict total order of them: the first
key that tells two rows apart decides, and rows that no key tells apart, in whatever direction it
goes, are in the ascending order of their ids. So the sorted list is the only list of these rows
that is in order. It is the same whatever order the rows come in, and sorting it again changes
nothing. -/
theorem sorting_has_one_result (keys : List SortKey) (rows : List Row)
    (hids : (rows.map Row.id?).Nodup) :
    let precedes := fun a b : Row ↦ Row.order keys a b = .lt
    let ties := fun (key : SortKey) (a b : Row) ↦
      (a.valueOf key.field).order (b.valueOf key.field) = .eq
    (∀ a, ¬precedes a a) ∧ (∀ a b, precedes a b → ¬precedes b a) ∧
    (∀ a b c, precedes a b → precedes b c → precedes a c) ∧
    (∀ a ∈ rows, ∀ b ∈ rows, precedes a b ∨ a = b ∨ precedes b a) ∧
    (∀ a b, precedes a b ↔
      (∃ earlier key later, keys = earlier ++ key :: later ∧ (∀ key ∈ earlier, ties key a b) ∧
        if key.descending then (b.valueOf key.field).order (a.valueOf key.field) = .lt
        else (a.valueOf key.field).order (b.valueOf key.field) = .lt) ∨
      (∀ key ∈ keys, ties key a b) ∧ a.idOrder b = .lt) ∧
    (∀ a b i j, (∀ key ∈ keys, ties key a b) → a.id? = some i → b.id? = some j →
      (precedes a b ↔ i < j)) ∧
    (Row.sorted keys rows).Perm rows ∧ (Row.sorted keys rows).Pairwise precedes ∧
    (∀ others, others.Perm rows → others.Pairwise precedes → others = Row.sorted keys rows) ∧
    (∀ others, others.Perm rows → Row.sorted keys others = Row.sorted keys rows) ∧
    Row.sorted keys (Row.sorted keys rows) = Row.sorted keys rows := by
  intro precedes ties
  have hsame : ∀ others : List Row, others.Perm rows →
      Row.sorted keys others = Row.sorted keys rows := by
    intro others hperm
    have hothers : (others.map Row.id?).Nodup := (hperm.map Row.id?).nodup_iff.mpr hids
    exact eq_sorted hids ((sorted_perm keys others).trans hperm) (pairwise_sorted keys hothers)
  refine ⟨fun a h ↦ ?_, fun a b ↦ Std.OrientedCmp.not_lt_of_lt, fun a b c ↦ Std.TransCmp.lt_trans,
    fun a ha b hb ↦ ?_, fun a b ↦ ?_, fun a b i j hties hi hj ↦ ?_, sorted_perm keys rows,
    pairwise_sorted keys hids, fun others ↦ eq_sorted hids, hsame, hsame _ (sorted_perm keys rows)⟩
  · exact Std.OrientedCmp.not_lt_of_lt h h
  · cases horder : Row.order keys a b with
    | lt => exact .inl horder
    | eq => exact .inr (.inl (eq_of_order_eq hids ha hb horder))
    | gt => exact .inr (.inr (Std.OrientedCmp.lt_of_gt horder))
  · simp only [precedes, ties, order_eq_lt_iff, SortKey.order_eq_eq_iff, SortKey.order_eq_lt_iff]
  · have htied : ∀ key ∈ keys, key.order a b = .eq := fun key hkey ↦
      (key.order_eq_eq_iff a b).mpr (hties key hkey)
    have horder : Row.order keys a b = compare i j := by
      rw [order_of_ties htied, idOrder_eq, compareOn, hi, hj]
      rfl
    rw [← Int.compare_eq_lt, ← horder]

end Row

/-! ## Boxes of all sizes -/

namespace Boxes

def box (id : Int) (size : Json) : Row := .ofList [("id", .int id), ("size", size)]

/-- Boxes from the greatest to the least size: two arrays, which are equal, a text, two numbers, and
no size at all in two ways, which are equal too. Of equal ones the box with the lesser id is first.
-/
theorem boxes_sorted_by_size :
    let rows := [box 7 .null, .ofList [("id", .int 6)], box 5 (.int (-3)), box 4 (.int 12),
      box 3 (.text "9"), box 2 (.array []), box 1 (.array [.int 8])]
    (rows.map Row.id?).Nodup ∧ Row.sorted [⟨"size", true⟩] rows = rows.reverse := by
  intro rows
  have hids : (rows.map Row.id?).Nodup := by decide +kernel
  obtain ⟨-, -, -, -, -, -, -, -, hunique, -, -⟩ :=
    Row.sorting_has_one_result [⟨"size", true⟩] rows hids
  exact ⟨hids, (hunique rows.reverse (List.reverse_perm rows) (by decide +kernel)).symm⟩

end Boxes

end RowAccess

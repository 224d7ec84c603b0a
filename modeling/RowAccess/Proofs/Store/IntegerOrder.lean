import Mathlib.Data.List.Pairwise
import RowAccess.Condition.Operand
import RowAccess.Proofs.Number.Rounding
import RowAccess.Proofs.Store.Order

/-!
# The order of stored integers

Stored integers are compared in two ways. A condition compares them with its operand as integers of
64 bits, and sorting compares their double precision numbers. The second way never reverses two
integers, but it makes integers with the same double precision number equal, and then their
ids decide. So a sorted list of integers can be out of order, and exactly then if some rows with one
double precision number have their ids in the wrong order (`pairwise_integers_iff`).
-/

namespace RowAccess

/-! ## Two integers -/

theorem Operand.compareStored_int (a : Int) {b : Int} (hb : Text.isInt64 b = true) :
    (Operand.int a).compareStored (.int b) = some (compare b a) := by
  rw [Json.int, compareStored, Number.asInt64?, if_pos hb, Option.map_some]

namespace Json

theorem order_int (a b : Int) :
    (Json.int a).order (.int b) = (Binary64.ofInt a).order (.ofInt b) := by
  rw [Json.int, Json.int, order]
  rfl

/-- Sorting orders two integers exactly, or makes them equal; these are not far from each other, and
not both small. -/
theorem order_int_eq_compare_or {a b : Int} (ha : Text.isInt64 a = true)
    (hb : Text.isInt64 b = true) :
    (Json.int a).order (.int b) = compare a b ∨
      (Json.int a).order (.int b) = .eq ∧ (a - b).natAbs ≤ 1024 ∧
        twoTo 53 < max a.natAbs b.natAbs := by
  rw [order_int]
  by_cases heq : a = b
  · exact .inl ((Binary64.order_ofInt_eq_compare_iff a b).mpr (.inl heq))
  by_cases hnearest : Binary64.nearest a = Binary64.nearest b
  · refine .inr ⟨?_, ?_, ?_⟩
    · rw [Binary64.order_ofInt, hnearest, Int.compare_eq_eq]
    · have hnearA := Binary64.nearest_near ha
      have hnearB := Binary64.nearest_near hb
      omega
    · refine Nat.lt_of_not_le fun hsmall ↦ heq ?_
      obtain ⟨hsmallA, hsmallB⟩ := Nat.max_le.mp hsmall
      rwa [Binary64.nearest_of_natAbs_le hsmallA, Binary64.nearest_of_natAbs_le hsmallB] at hnearest
  · exact .inl (Binary64.order_ofInt_of_ne hnearest)

theorem order_int_then_eq_lt {a b : Int} (hlt : a < b) (rest : Ordering) :
    ((Json.int a).order (.int b)).then rest = .lt ↔
      ((Binary64.ofInt a).same (.ofInt b) = true → rest = .lt) := by
  rw [order_int, Binary64.same_ofInt]
  by_cases hnearest : Binary64.nearest a = Binary64.nearest b
  · rw [Binary64.order_ofInt, Int.compare_eq_eq.mpr hnearest, Ordering.eq_then]
    exact ⟨fun h _ ↦ h, fun h ↦ h hnearest⟩
  · rw [Binary64.order_ofInt_of_ne hnearest, Int.compare_eq_lt.mpr hlt]
    exact ⟨fun _ h ↦ absurd h hnearest, fun _ ↦ rfl⟩

end Json

/-! ## Rows that hold integers -/

namespace Row

variable {keys : List SortKey} {rows : List Row} {field : String} {value : Row → Int} {a b : Row}

/-- A sorted list respects another order of its rows if and only if the sort keys do. -/
theorem pairwise_not_before_iff (before : Row → Row → Prop) (hirrefl : ∀ a, ¬before a a)
    (hids : (rows.map Row.id?).Nodup) :
    (Row.sorted keys rows).Pairwise (fun a b ↦ ¬before b a) ↔
      ∀ a ∈ rows, ∀ b ∈ rows, before a b → Row.order keys a b = .lt := by
  have hsorted := pairwise_sorted keys hids
  constructor
  · intro hexact a ha b hb hbefore
    -- Two rows of the list stand in it as they are ordered, whichever of the two is named first.
    let respected : Row → Row → Prop := fun a b ↦
      (Row.order keys a b = .lt → ¬before b a) ∧ (Row.order keys b a = .lt → ¬before a b)
    have hsymm : Std.Symm respected := ⟨fun _ _ ↦ And.symm⟩
    have hrespected : (Row.sorted keys rows).Pairwise respected :=
      (hsorted.and hexact).imp fun {a b} ⟨hlt, hnot⟩ ↦
        ⟨fun _ ↦ hnot, fun hgt ↦ absurd hgt (Std.OrientedCmp.not_lt_of_lt hlt)⟩
    have hne : a ≠ b := fun heq ↦ hirrefl a (heq ▸ hbefore)
    have hnot := (hrespected.forall (mem_sorted.mpr ha) (mem_sorted.mpr hb) hne).2
    cases horder : Row.order keys a b with
    | lt => rfl
    | eq => exact absurd (eq_of_order_eq hids ha hb horder) hne
    | gt => exact absurd hbefore (hnot (Std.OrientedCmp.lt_of_gt horder))
  · intro hkeys
    refine hsorted.imp_of_mem fun {a b} ha hb hlt hbefore ↦ ?_
    have hgt := hkeys b (mem_sorted.mp hb) a (mem_sorted.mp ha) hbefore
    exact Std.OrientedCmp.not_lt_of_lt hlt hgt

/-- Stored integers are out of order in a sorted list if and only if the ids of some rows with one
double precision number go the other way. -/
theorem pairwise_integers_iff (hids : (rows.map Row.id?).Nodup)
    (hvalue : ∀ row ∈ rows, row.valueOf field = .int (value row)) :
    ((Row.sorted [⟨field, false⟩] rows).Pairwise (fun a b ↦ value a ≤ value b) ↔
      ∀ a ∈ rows, ∀ b ∈ rows, value a < value b →
        (Binary64.ofInt (value a)).same (.ofInt (value b)) = true → a.idOrder b = .lt) ∧
    ((Row.sorted [⟨field, true⟩] rows).Pairwise (fun a b ↦ value b ≤ value a) ↔
      ∀ a ∈ rows, ∀ b ∈ rows, value b < value a →
        (Binary64.ofInt (value b)).same (.ofInt (value a)) = true → a.idOrder b = .lt) := by
  simp only [← Int.not_lt]
  constructor
  · rw [pairwise_not_before_iff (fun a b ↦ value a < value b) (fun a ↦ Int.lt_irrefl _) hids]
    refine forall₄_congr fun a ha b hb ↦ forall_congr' fun hlt ↦ ?_
    have hkey : SortKey.order ⟨field, false⟩ a b = (Json.int (value a)).order (.int (value b)) := by
      rw [SortKey.order, hvalue a ha, hvalue b hb, if_neg Bool.false_ne_true]
    rw [Row.order, Row.order, hkey, Json.order_int_then_eq_lt hlt]
  · rw [pairwise_not_before_iff (fun a b ↦ value b < value a) (fun a ↦ Int.lt_irrefl _) hids]
    refine forall₄_congr fun a ha b hb ↦ forall_congr' fun hlt ↦ ?_
    have hkey : SortKey.order ⟨field, true⟩ a b = (Json.int (value b)).order (.int (value a)) := by
      rw [SortKey.order, hvalue a ha, hvalue b hb, if_pos rfl, Json.order_swap]
    rw [Row.order, Row.order, hkey, Json.order_int_then_eq_lt hlt]

/-- Sorting orders stored integers by their double precision numbers, and filtering orders them
exactly. A condition compares a stored integer with its operand as integers of 64 bits. Sorting
agrees with that unless two different integers have the same double precision number; it takes these
for equal, which are `1024` apart at most and not both `2 ^ 53` at most in magnitude, and never
reverses two integers. Rows of different ids are thus listed in the exact order of a field of
integers, ascending or descending, if and only if of each two rows that are wrongly taken for equal
the one that has to come first has the lesser id. -/
theorem integers_sorted_exactly_iff {field : String} {rows : List Row} {value : Row → Int}
    (hids : (rows.map Row.id?).Nodup)
    (hvalue : ∀ row ∈ rows, (row.valueOf field).asInt64? = some (value row)) :
    let taken := fun a b : Int ↦ (Binary64.ofInt a).same (.ofInt b)
    (∀ a b, Text.isInt64 a = true → Text.isInt64 b = true →
      (Operand.int b).compareStored (.int a) = some (compare a b) ∧
      ((Json.int a).order (.int b) = compare a b ↔ a = b ∨ taken a b = false) ∧
      ((Json.int a).order (.int b) = compare a b ∨
        (Json.int a).order (.int b) = .eq ∧ (a - b).natAbs ≤ 1024 ∧
          twoTo 53 < max a.natAbs b.natAbs)) ∧
    ((Row.sorted [⟨field, false⟩] rows).Pairwise (fun a b ↦ value a ≤ value b) ↔
      ∀ a ∈ rows, ∀ b ∈ rows, value a < value b → taken (value a) (value b) = true →
        a.idOrder b = .lt) ∧
    ((Row.sorted [⟨field, true⟩] rows).Pairwise (fun a b ↦ value b ≤ value a) ↔
      ∀ a ∈ rows, ∀ b ∈ rows, value b < value a → taken (value b) (value a) = true →
        a.idOrder b = .lt) := by
  intro taken
  refine ⟨fun a b ha hb ↦ ⟨Operand.compareStored_int b ha, ?_, Json.order_int_eq_compare_or ha hb⟩,
    pairwise_integers_iff hids fun row hrow ↦ (Json.asInt64?_eq_some_iff.mp (hvalue row hrow)).2⟩
  rw [Json.order_int, Binary64.order_ofInt_eq_compare_iff, ← Bool.not_eq_true,
    Binary64.same_ofInt]

end Row

/-! ## Boxes of great sizes -/

namespace Boxes

def size (row : Row) : Int := ((row.valueOf "size").asInt64?).getD 0

/-- Two boxes whose sizes have one double precision number are listed by id. So they come in order
if the lesser one has the lesser id, but then not in descending order. -/
theorem great_boxes_sorted :
    let rows := [box 2 (.int 9007199254740993), box 1 (.int 9007199254740992)]
    (rows.map Row.id?).Nodup ∧
    (∀ row ∈ rows, (row.valueOf "size").asInt64? = some (size row)) ∧
    (Row.sorted [⟨"size", false⟩] rows).Pairwise (fun a b ↦ size a ≤ size b) ∧
    ¬(Row.sorted [⟨"size", true⟩] rows).Pairwise (fun a b ↦ size b ≤ size a) := by
  intro rows
  have hids : (rows.map Row.id?).Nodup := by decide +kernel
  have hsize : ∀ row ∈ rows, (row.valueOf "size").asInt64? = some (size row) := by decide +kernel
  obtain ⟨-, hascending, hdescending⟩ := Row.integers_sorted_exactly_iff hids hsize
  refine ⟨hids, hsize, hascending.mpr (by decide +kernel), fun h ↦ ?_⟩
  exact absurd (hdescending.mp h) (by decide +kernel)

/-- A filter finds that the first box is greater, but it is listed first, since sorting takes the
two sizes for equal. -/
theorem greater_box_listed_first :
    let rows := [box 1 (.int 9007199254740993), box 2 (.int 9007199254740992)]
    (Operand.int 9007199254740992).compareStored (.int 9007199254740993) = some .gt ∧
    (Json.int 9007199254740993).order (.int 9007199254740992) = .eq ∧
    Row.sorted [⟨"size", false⟩] rows = rows ∧
    ¬rows.Pairwise (fun a b ↦ size a ≤ size b) := by
  intro rows
  refine ⟨by decide +kernel, by decide +kernel, ?_, by decide +kernel⟩
  exact (Row.eq_sorted (by decide +kernel) (.refl rows) (by decide +kernel)).symm

end Boxes

end RowAccess

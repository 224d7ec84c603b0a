import RowAccess.Proofs.Calendar.Date
import RowAccess.Proofs.Evaluation.Joining
import RowAccess.Proofs.Query.Operators

/-!
# Bounds on integers and dates

A filter on an integer or a date gives a bound by an operator and digits. The digits denote an
integer, or a year; a year stands for its last day as an upper bound and for its first day as a
lower one, so that a bound which includes the year includes all of its days. Operand and stored
value are compared as numbers or as dates and never as text. Null is not compared with anything, so
a row without a value is found by no bound, not even by two bounds that leave no value out.
-/

namespace RowAccess

/-! ## Bounds of stored values -/

namespace Lookup

/-- The lookups that give a bound. -/
def bounds : List Lookup := [.gt, .gte, .lt, .lte]

/-- Whether a value that is ordered so relative to a bound is within it. -/
def accepts : Lookup → Ordering → Bool
  | gt => Ordering.isGT
  | gte => Ordering.isGE
  | lt => Ordering.isLT
  | lte => Ordering.isLE
  | exact | iExact | startsWith | iStartsWith | endsWith | iEndsWith | contains | iContains | lenEq
  | lenGt | arrayContains => fun _ ↦ false

/-- The day of a year that a year stands for as a bound. -/
def dayOf (year : Int) : Lookup → Date
  | lt | lte => ⟨year, 12, 31⟩
  | _ => ⟨year, 1, 1⟩

end Lookup

namespace Condition

variable {path : String} {lookup : Lookup}

theorem holdsOf_bound (h : lookup ∈ Lookup.bounds) (operand : Operand) (stored : Json) :
    holdsOf ⟨path, lookup, operand⟩ stored = compareOrder lookup.accepts operand stored := by
  simp only [Lookup.bounds, List.mem_cons, List.not_mem_nil, or_false] at h
  rcases h with rfl | rfl | rfl | rfl <;> rfl

theorem holdsOf_int (h : lookup ∈ Lookup.bounds) {stored : Json} {x : Int}
    (hx : stored.asInt64? = some x) (n : Int) :
    holdsOf ⟨path, lookup, .int n⟩ stored = lookup.accepts (compare x n) := by
  obtain ⟨-, rfl⟩ := Json.asInt64?_eq_some_iff.mp hx
  have hnumber : Number.asInt64? (.int x) = some x := hx
  rw [holdsOf_bound h, compareOrder, Json.int, Operand.compareStored, hnumber, Option.map_some,
    Option.any_some]

theorem holdsOf_date (h : lookup ∈ Lookup.bounds) {text : String} {d : Date} (hd : d.LeadsText text)
    (bound : Date) :
    holdsOf ⟨path, lookup, .date bound⟩ (.text text) = lookup.accepts (d.order bound) := by
  rw [holdsOf_bound h, compareOrder, Operand.compareStored, hd.ofStored?, Option.map_some,
    Option.any_some]

end Condition

theorem Condition.holdsOf_null_of_bound {c : Condition} (h : c.lookup ∈ Lookup.bounds) :
    c.holdsOf .null = false := by
  rw [Bool.eq_false_iff, ne_eq, holdsOf_null_iff]
  rintro ⟨hexact, -⟩
  rw [hexact] at h
  exact absurd h (by decide)

/-- A row is within a bound if a value that it reaches is, and null is no such value. -/
theorem Store.holds_bound_iff {c : Condition} (h : c.lookup ∈ Lookup.bounds) (s : Store) (m : Model)
    (row : Row) :
    s.holds m row (.leaf c) = true ↔ ∃ value ∈ s.reached m row [] (pathSegments c.path),
      value ≠ .null ∧ c.holdsOf value = true := by
  have hnull := Condition.holdsOf_null_of_bound h
  rw [s.holds_leaf, s.meets_iff_of_not_null hnull]
  refine exists_congr fun value ↦ and_congr_right fun _ ↦ ⟨fun hvalue ↦ ⟨?_, hvalue⟩, And.right⟩
  rintro rfl
  rw [hnull] at hvalue
  exact nomatch hvalue

/-- Nothing but null is reached from a field that is missing or null. -/
theorem Store.eq_null_of_reached {row : Row} {c : Condition} (h : row.valueOf c.root = .null)
    {s : Store} {m : Model} {value : Json}
    (hvalue : value ∈ s.reached m row [] (pathSegments c.path)) : value = .null := by
  obtain ⟨rest, hrest⟩ := c.segments_eq_cons
  rw [hrest] at hvalue
  cases hrelation : m.hasRelation c.root with
  | false =>
    rw [s.reached_plain m row hrelation, h] at hvalue
    split at hvalue
    · exact List.mem_singleton.mp hvalue
    · exact absurd hvalue List.not_mem_nil
  | true =>
    rw [Model.hasRelation, Option.any_eq_true] at hrelation
    obtain ⟨spec, hfield, hkind⟩ := hrelation
    rw [s.reached_relation m row hfield hkind, h] at hvalue
    have hnone : idsUnder spec.kind ([].lookup c.root) .null = [] := by
      cases spec.kind <;> rfl
    rw [hnone] at hvalue
    exact absurd hvalue List.not_mem_nil

/-! ## Operators and digits -/

theorem Form.unambiguous_onOrder : Unambiguous Text.isDigit onOrder :=
  unambiguous_of_marks (by decide) (by decide) (by decide)

theorem Form.lookup_onOrder {form : Form} (h : form ∈ onOrder) : form.lookup ∈ Lookup.bounds := by
  have hall : ∀ form ∈ onOrder, form.lookup ∈ Lookup.bounds := by decide
  exact hall form h

section Bounds

variable {path digits mark : String} {lookup : Lookup}

theorem Form.match?_bound (hform : ⟨lookup, mark, ""⟩ ∈ onOrder)
    (hdigits : IsOperand Text.isDigit digits) :
    match? onOrder Text.isDigit (mark ++ digits) = some (lookup, digits) := by
  have hwrite : mark ++ digits = write ⟨lookup, mark, ""⟩ digits := String.append_empty.symm
  rw [hwrite, unambiguous_onOrder.match?_write hform hdigits]

theorem Form.IsOperand.bound_filled (hpath : path ≠ "") (hdigits : IsOperand Text.isDigit digits) :
    (path.isEmpty || (mark ++ digits).isEmpty) = false := by
  simp [hpath, hdigits.1]

/-- A bound on integers is the number that its digits denote. -/
theorem Json.meetsFilter_integer (hpath : path ≠ "") (hform : ⟨lookup, mark, ""⟩ ∈ Form.onOrder)
    (hdigits : Form.IsOperand Text.isDigit digits)
    (hmax : (Text.digitsValue digits.toList : Int) ≤ Text.int64Max) {stored : Json} {x : Int}
    (hx : stored.asInt64? = some x) :
    stored.meetsFilter .integer path (mark ++ digits)
      = lookup.accepts (compare x (Text.digitsValue digits.toList)) := by
  have hoperand : integerOperand digits = .int (Text.digitsValue digits.toList) := by
    rw [integerOperand, Text.readInt64?_of_digits hdigits.1 hdigits.2 hmax]
  rw [meetsFilter, compileValue, hdigits.bound_filled hpath, if_neg Bool.false_ne_true]
  simp only [Form.match?_bound hform hdigits, hoperand, Predicate.compare]
  exact Condition.holdsOf_int (Form.lookup_onOrder hform) hx _

/-- A bound on dates is a day of the year that its digits denote. -/
theorem Json.meetsFilter_date (hpath : path ≠ "") (hform : ⟨lookup, mark, ""⟩ ∈ Form.onOrder)
    (hdigits : Form.IsOperand Text.isDigit digits) (hlength : digits.length = 4) {text : String}
    {d : Date} (hd : d.LeadsText text) :
    (Json.text text).meetsFilter .date path (mark ++ digits)
      = lookup.accepts (d.order (lookup.dayOf (Text.digitsValue digits.toList))) := by
  have hoperand : yearOperand lookup digits
      = .date (lookup.dayOf (Text.digitsValue digits.toList)) := by
    rw [yearOperand, if_pos hlength]
    cases lookup <;> rfl
  rw [meetsFilter, compileValue, hdigits.bound_filled hpath, if_neg Bool.false_ne_true]
  simp only [Form.match?_bound hform hdigits, hoperand, Predicate.compare]
  exact Condition.holdsOf_date (Form.lookup_onOrder hform) hd _

theorem Json.meetsFilter_integer_iff (hpath : path ≠ "")
    (hdigits : Form.IsOperand Text.isDigit digits)
    (hmax : (Text.digitsValue digits.toList : Int) ≤ Text.int64Max) {stored : Json} {x : Int}
    (hx : stored.asInt64? = some x) :
    let n := Text.digitsValue digits.toList
    let within := fun value ↦ stored.meetsFilter .integer path value = true
    (within (">" ++ digits) ↔ n < x) ∧ (within (">=" ++ digits) ↔ n ≤ x) ∧
      (within ("<" ++ digits) ↔ x < n) ∧ (within ("<=" ++ digits) ↔ x ≤ n) := by
  intro n within
  have hbound : ∀ lookup mark, ⟨lookup, mark, ""⟩ ∈ Form.onOrder →
      (within (mark ++ digits) ↔ lookup.accepts (compare x n) = true) := by
    intro lookup mark hform
    rw [← meetsFilter_integer hpath hform hdigits hmax hx]
  refine ⟨?_, ?_, ?_, ?_⟩
  · exact (hbound .gt ">" (by decide)).trans (Ordering.isGT_iff_eq_gt.trans Int.compare_eq_gt)
  · exact (hbound .gte ">=" (by decide)).trans Int.isGE_compare
  · exact (hbound .lt "<" (by decide)).trans (Ordering.isLT_iff_eq_lt.trans Int.compare_eq_lt)
  · exact (hbound .lte "<=" (by decide)).trans Int.isLE_compare

/-- Inclusive bounds on dates compare years, exclusive ones leave out one day of their year. -/
theorem Json.meetsFilter_date_iff (hpath : path ≠ "") (hdigits : Form.IsOperand Text.isDigit digits)
    (hlength : digits.length = 4) {text : String} {d : Date} (hd : d.LeadsText text) :
    let n := Text.digitsValue digits.toList
    let within := fun value ↦ (Json.text text).meetsFilter .date path value = true
    (within (">=" ++ digits) ↔ n ≤ d.year) ∧ (within ("<=" ++ digits) ↔ d.year ≤ n) ∧
      (within (">" ++ digits) ↔ Date.Before ⟨n, 1, 1⟩ d) ∧
      (within ("<" ++ digits) ↔ d.Before ⟨n, 12, 31⟩) := by
  intro n within
  have hbound : ∀ lookup mark, ⟨lookup, mark, ""⟩ ∈ Form.onOrder →
      (within (mark ++ digits) ↔ lookup.accepts (d.order (lookup.dayOf n)) = true) := by
    intro lookup mark hform
    rw [← meetsFilter_date hpath hform hdigits hlength hd]
  refine ⟨?_, ?_, ?_, ?_⟩
  · rw [← Int.not_lt, ← hd.exists.before_first_iff]
    exact (hbound .gte ">=" (by decide)).trans Date.isGE_order_iff
  · rw [← Int.not_lt, ← hd.exists.last_before_iff]
    exact (hbound .lte "<=" (by decide)).trans Date.isLE_order_iff
  · exact (hbound .gt ">" (by decide)).trans Date.isGT_order_iff
  · exact (hbound .lt "<" (by decide)).trans Date.isLT_order_iff

end Bounds

/-- A bound means what it says. On integers it is the comparison with the number, in decimal, that
stands behind its operator. On dates and times of four-digit years an inclusive bound compares the
year alone, while an exclusive one leaves out just the first day of its year, or just the last one.
So the values up to a number and those above it are all of them and none twice, and so are the dates
up to a year and those from the next year on. Null and missing values are within no bound. -/
theorem bounds_compare_stored_values (path : String) (hpath : path ≠ "") (digits : String)
    (hdigits : Form.IsOperand Text.isDigit digits) :
    let n := Text.digitsValue digits.toList
    ((n : Int) ≤ Text.int64Max → ∀ (stored : Json) (x : Int), stored.asInt64? = some x →
      let within := fun value ↦ stored.meetsFilter .integer path value = true
      (within (">" ++ digits) ↔ n < x) ∧ (within (">=" ++ digits) ↔ n ≤ x) ∧
      (within ("<" ++ digits) ↔ x < n) ∧ (within ("<=" ++ digits) ↔ x ≤ n) ∧
      (within ("<=" ++ digits) ↔ ¬within (">" ++ digits))) ∧
    (digits.length = 4 → ∀ (text : String) (d : Date), d.LeadsText text →
      let within := fun value ↦ (Json.text text).meetsFilter .date path value = true
      (within (">=" ++ digits) ↔ n ≤ d.year) ∧ (within ("<=" ++ digits) ↔ d.year ≤ n) ∧
      (within (">" ++ digits) ↔ Date.Before ⟨n, 1, 1⟩ d) ∧
      (within ("<" ++ digits) ↔ d.Before ⟨n, 12, 31⟩) ∧
      ∀ next, Form.IsOperand Text.isDigit next → next.length = 4 →
        Text.digitsValue next.toList = n + 1 →
          (within ("<=" ++ digits) ↔ ¬within (">=" ++ next))) ∧
    ∀ c : Condition, c.lookup ∈ Lookup.bounds → c.holdsOf .null = false ∧
      ∀ (s : Store) (m : Model) (row : Row),
        (s.holds m row (.leaf c) = true ↔ ∃ value ∈ s.reached m row [] (pathSegments c.path),
          value ≠ .null ∧ c.holdsOf value = true) ∧
        (row.valueOf c.root = .null → s.holds m row (.leaf c) = false) := by
  intro n
  refine ⟨?_, ?_, ?_⟩
  · intro hmax stored x hx within
    obtain ⟨habove, hfrom, hbelow, hupto⟩ := Json.meetsFilter_integer_iff hpath hdigits hmax hx
    refine ⟨habove, hfrom, hbelow, hupto, ?_⟩
    exact hupto.trans (Int.not_lt.symm.trans (not_congr habove).symm)
  · intro hlength text d hd within
    obtain ⟨hfrom, hupto, hafter, hbefore⟩ := Json.meetsFilter_date_iff hpath hdigits hlength hd
    refine ⟨hfrom, hupto, hafter, hbefore, ?_⟩
    intro next hnext hnextLength hvalue
    obtain ⟨hfromNext, -⟩ := Json.meetsFilter_date_iff hpath hnext hnextLength hd
    refine hupto.trans (Iff.trans ?_ (not_congr hfromNext).symm)
    rw [hvalue]
    omega
  · intro c hc
    refine ⟨Condition.holdsOf_null_of_bound hc, fun s m row ↦ ⟨s.holds_bound_iff hc m row, ?_⟩⟩
    intro hnull
    rw [Bool.eq_false_iff, ne_eq, s.holds_bound_iff hc m row]
    rintro ⟨value, hvalue, hne, -⟩
    exact hne (Store.eq_null_of_reached hnull hvalue)

/-! ## Terms of a loan -/

namespace Loans

/-- The last day of a year, at any time, is still in the year and not before its end. A loan without
a term ends in no year. -/
theorem last_day_is_within_its_year :
    let ends := Json.text "2024-12-31T23:59:59Z"
    let d : Date := ⟨2024, 12, 31⟩
    "ends" ≠ "" ∧ Form.IsOperand Text.isDigit "2024" ∧ Form.IsOperand Text.isDigit "2025" ∧
      d.LeadsText "2024-12-31T23:59:59Z" ∧
      ends.meetsFilter .date "ends" "<=2024" = true ∧
      ends.meetsFilter .date "ends" "<2024" = false ∧
      ends.meetsFilter .date "ends" ">2024" = true ∧
      ends.meetsFilter .date "ends" ">=2025" = false ∧
      (Json.int 2024).meetsFilter .integer "ends" ">=2024" = true ∧
      Condition.holdsOf ⟨"ends", .lte, .int 2024⟩ .null = false := by
  intro ends d
  have hpath : "ends" ≠ "" := by decide
  have hdigits : Form.IsOperand Text.isDigit "2024" :=
    ⟨by decide, List.all_eq_true.mp (by decide)⟩
  have hnext : Form.IsOperand Text.isDigit "2025" :=
    ⟨by decide, List.all_eq_true.mp (by decide)⟩
  have hleads : d.LeadsText "2024-12-31T23:59:59Z" :=
    ⟨"2024".toList, "12".toList, "31".toList, "T23:59:59Z".toList, by decide, by decide,
      List.all_eq_true.mp (by decide), by decide⟩
  have hvalue : Text.digitsValue "2024".toList = 2024 := by decide
  obtain ⟨hintegers, hdates, hnull⟩ := bounds_compare_stored_values "ends" hpath "2024" hdigits
  obtain ⟨-, hfrom, -⟩ := hintegers (by decide) (.int 2024) 2024 (by decide)
  obtain ⟨-, hupto, hafter, hbefore, hsplit⟩ := hdates (by decide) "2024-12-31T23:59:59Z" d hleads
  have hended : ends.meetsFilter .date "ends" "<=2024" = true := by
    rw [hvalue] at hupto
    exact hupto.mpr (by decide)
  refine ⟨hpath, hdigits, hnext, hleads, hended, ?_, ?_, ?_, ?_, ?_⟩
  · rw [Bool.eq_false_iff]
    exact mt hbefore.mp (by rw [hvalue]; simp [Date.Before, d])
  · exact hafter.mpr (by rw [hvalue]; simp [Date.Before, d])
  · rw [Bool.eq_false_iff]
    exact (hsplit "2025" hnext (by decide) (by decide)).mp hended
  · exact hfrom.mpr (by rw [hvalue]; decide)
  · exact (hnull ⟨"ends", .lte, .int 2024⟩ (by decide)).1

end Loans

end RowAccess

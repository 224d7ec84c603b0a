import RowAccess.Calendar.Date
import RowAccess.Proofs.Text.Integer

/-!
# Dates in stored text

A stored date, or the date of a stored time, is read from the four digits of the year and two each
of the month and of the day that the text begins with. Dates are ordered by year, month and day, so
a bound on the year is a comparison with its first day or with its last one.
-/

namespace RowAccess.Date

/-! ## The order of dates -/

/-- A date comes before another one by its year, or in the same year by its month, or in the same
month by its day. -/
def Before (a b : Date) : Prop :=
  a.year < b.year ∨ a.year = b.year ∧ (a.month < b.month ∨ a.month = b.month ∧ a.day < b.day)

theorem order_eq_lt_iff {a b : Date} : a.order b = .lt ↔ a.Before b := by
  rw [order, Ordering.then_eq_lt, Ordering.then_eq_lt, Int.compare_eq_lt, Int.compare_eq_eq,
    Nat.compare_eq_lt, Nat.compare_eq_eq, Nat.compare_eq_lt, Before]

theorem order_eq_gt_iff {a b : Date} : a.order b = .gt ↔ b.Before a := by
  rw [order, Ordering.then_eq_gt, Ordering.then_eq_gt, Int.compare_eq_gt, Int.compare_eq_eq,
    Nat.compare_eq_gt, Nat.compare_eq_eq, Nat.compare_eq_gt, Before, eq_comm (a := a.year),
    eq_comm (a := a.month)]

theorem isLT_order_iff {a b : Date} : (a.order b).isLT = true ↔ a.Before b := by
  rw [← order_eq_lt_iff, Ordering.isLT_iff_eq_lt]

theorem isGT_order_iff {a b : Date} : (a.order b).isGT = true ↔ b.Before a := by
  rw [← order_eq_gt_iff, Ordering.isGT_iff_eq_gt]

theorem isLE_order_iff {a b : Date} : (a.order b).isLE = true ↔ ¬b.Before a := by
  rw [← order_eq_gt_iff, Ordering.isLE_iff_ne_gt]

theorem isGE_order_iff {a b : Date} : (a.order b).isGE = true ↔ ¬a.Before b := by
  rw [← order_eq_lt_iff, Ordering.isGE_iff_ne_lt]

/-- A date of the calendar. -/
def Exists (d : Date) : Prop := ofParts? d.year d.month d.day = some d

theorem exists_of_ofParts? {year : Int} {month day : Nat} {d : Date}
    (h : ofParts? year month day = some d) : d = ⟨year, month, day⟩ ∧ d.Exists := by
  have hsame : d = ⟨year, month, day⟩ := by
    rw [ofParts?, Option.ite_none_right_eq_some] at h
    exact (Option.some.inj h.2).symm
  subst hsame
  exact ⟨rfl, h⟩

theorem Exists.bounds {d : Date} (h : d.Exists) :
    (1 ≤ d.month ∧ d.month ≤ 12) ∧ 1 ≤ d.day ∧ d.day ≤ 31 := by
  rw [Exists, ofParts?, Option.ite_none_right_eq_some] at h
  obtain ⟨⟨-, -, hfirst, hlast, hday, hlength⟩, -⟩ := h
  have hmonth : monthLength d.year d.month ≤ 31 := by
    rw [monthLength]
    split
    · split <;> decide
    · split <;> decide
  exact ⟨⟨hfirst, hlast⟩, hday, Nat.le_trans hlength hmonth⟩

/-- A date comes before the first day of a year exactly if its year is an earlier one. -/
theorem Exists.before_first_iff {d : Date} (h : d.Exists) (year : Int) :
    d.Before ⟨year, 1, 1⟩ ↔ d.year < year := by
  have hbounds := h.bounds
  simp only [Before]
  omega

/-- The last day of a year comes before a date exactly if its year is a later one. -/
theorem Exists.last_before_iff {d : Date} (h : d.Exists) (year : Int) :
    Before ⟨year, 12, 31⟩ d ↔ year < d.year := by
  have hbounds := h.bounds
  simp only [Before]
  omega

/-! ## The date at the start of a text -/

/-- The first ten characters of a text are a date of the calendar: four digits of the year and two
each of the month and of the day, with hyphens between them. -/
def LeadsText (d : Date) (text : String) : Prop :=
  ∃ year month day rest : List Char,
    text.toList = (year ++ '-' :: (month ++ '-' :: day)) ++ rest ∧
      (year.length = 4 ∧ month.length = 2 ∧ day.length = 2) ∧
      (∀ c ∈ year ++ (month ++ day), Text.isDigit c = true) ∧
      ofParts? (Text.digitsValue year) (Text.digitsValue month) (Text.digitsValue day) = some d

theorem LeadsText.exists {d : Date} {text : String} (h : d.LeadsText text) : d.Exists := by
  obtain ⟨_, _, _, _, -, -, -, hd⟩ := h
  exact (exists_of_ofParts? hd).2

theorem takeOctets?_append {cs : List Char} (h : ∀ c ∈ cs, c.utf8Size = 1) (rest : List Char) :
    takeOctets? (cs ++ rest) cs.length = some cs := by
  induction cs with
  | nil => rw [List.length_nil, takeOctets?]
  | cons c cs ih =>
    have hc : c.utf8Size = 1 := h c List.mem_cons_self
    have hrest := ih fun d hd ↦ h d (List.mem_cons_of_mem _ hd)
    rw [List.cons_append, List.length_cons, takeOctets?, hc, if_pos (by omega),
      Nat.add_sub_cancel, hrest, Option.map_some]

theorem takeDigits?_append {width : Nat} {digits : List Char} (hlength : digits.length = width)
    (hwidth : 0 < width) (hdigits : ∀ c ∈ digits, Text.isDigit c = true) (rest : List Char) :
    takeDigits? width (digits ++ rest) = some (Text.digitsValue digits, rest) := by
  have htake : ((digits ++ rest).take width).takeWhile Text.isDigit = digits := by
    rw [← hlength, List.take_left, ← List.append_nil digits,
      List.takeWhile_append_of_pos hdigits, List.takeWhile_nil]
  have hfilled : digits.isEmpty = false := by
    rw [List.isEmpty_eq_false_iff, ← List.length_pos_iff, hlength]
    exact hwidth
  simp only [takeDigits?, htake, hfilled, List.drop_left, Bool.false_eq_true, if_false]

theorem dropLeading_digits {digits : List Char} (hne : digits ≠ [])
    (hdigits : ∀ c ∈ digits, Text.isDigit c = true) (rest : List Char) :
    Text.dropLeading Text.isBlank (digits ++ rest) = digits ++ rest := by
  obtain ⟨c, cs, rfl⟩ := List.exists_cons_of_ne_nil hne
  have hblank := Text.isBlank_of_isDigit (hdigits c List.mem_cons_self)
  rw [Text.dropLeading, List.cons_append, List.dropWhile_cons, hblank, if_neg Bool.false_ne_true]

theorem takeYear?_append {digits : List Char} (hlength : digits.length = 4)
    (hdigits : ∀ c ∈ digits, Text.isDigit c = true) (rest : List Char) :
    takeYear? (digits ++ rest) = some ((Text.digitsValue digits : Int), rest) := by
  have hne : digits ≠ [] := by
    rintro rfl
    exact absurd hlength (by decide)
  have htaken := takeDigits?_append hlength (by decide) hdigits rest
  have hsign : ∀ sign, Text.isDigit sign = false → ∀ more, digits ++ rest ≠ sign :: more := by
    rintro sign hsign more hmore
    obtain ⟨c, cs, rfl⟩ := List.exists_cons_of_ne_nil hne
    obtain ⟨rfl, -⟩ := List.cons.inj hmore
    exact absurd ((hdigits c List.mem_cons_self).symm.trans hsign) (by decide)
  rw [takeYear?, dropLeading_digits hne hdigits]
  dsimp only
  split
  · next more hmore => exact absurd hmore (hsign '-' (by decide) more)
  · next more hmore => exact absurd hmore (hsign '+' (by decide) more)
  · rw [htaken, Option.map_some]

theorem takeTwo?_append {digits : List Char} (hlength : digits.length = 2)
    (hdigits : ∀ c ∈ digits, Text.isDigit c = true) (rest : List Char) :
    takeTwo? (digits ++ rest) = some (Text.digitsValue digits, rest) := by
  have hne : digits ≠ [] := by
    rintro rfl
    exact absurd hlength (by decide)
  rw [takeTwo?, dropLeading_digits hne hdigits, takeDigits?_append hlength (by decide) hdigits]

/-- The date that a text begins with is read from it, whatever stands behind. -/
theorem LeadsText.ofStored? {d : Date} {text : String} (h : d.LeadsText text) :
    Date.ofStored? text = some d := by
  obtain ⟨year, month, day, rest, htext, ⟨hyear, hmonth, hday⟩, hdigits, hd⟩ := h
  have hsize : ∀ c ∈ year ++ '-' :: (month ++ '-' :: day), c.utf8Size = 1 := by
    have hdigit : ∀ c, Text.isDigit c = true → c.utf8Size = 1 := by
      intro c hc
      rw [Text.isDigit, Bool.and_eq_true, decide_eq_true_eq, decide_eq_true_eq] at hc
      rw [Char.utf8Size_eq_one_iff]
      exact UInt32.le_trans hc.2 (by decide)
    intro c hc
    simp only [List.mem_append, List.mem_cons] at hc hdigits
    rcases hc with hc | rfl | hc | rfl | hc
    · exact hdigit c (hdigits c (.inl hc))
    · rfl
    · exact hdigit c (hdigits c (.inr (.inl hc)))
    · rfl
    · exact hdigit c (hdigits c (.inr (.inr hc)))
  have hlength : (year ++ '-' :: (month ++ '-' :: day)).length = 10 := by
    simp only [List.length_append, List.length_cons]
    omega
  have htaken := takeOctets?_append hsize rest
  rw [hlength] at htaken
  have hyears : ∀ c ∈ year, Text.isDigit c = true :=
    fun c hc ↦ hdigits c (List.mem_append_left _ hc)
  have hmonths : ∀ c ∈ month, Text.isDigit c = true :=
    fun c hc ↦ hdigits c (List.mem_append_right _ (List.mem_append_left _ hc))
  have hdays : ∀ c ∈ day, Text.isDigit c = true :=
    fun c hc ↦ hdigits c (List.mem_append_right _ (List.mem_append_right _ hc))
  have hend := takeTwo?_append hday hdays []
  rw [List.append_nil] at hend
  rw [Date.ofStored?, htext, htaken, Option.getD_some, parse?, parseWith?,
    takeYear?_append hyear hyears]
  simp only [Option.bind_eq_bind, Option.bind_some, takeHyphen?, Bool.false_eq_true, if_false,
    takeTwo?_append hmonth hmonths, hend, List.isEmpty_nil, if_true]
  exact hd

end RowAccess.Date

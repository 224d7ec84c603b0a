import RowAccess.Condition.Comparison
import RowAccess.Proofs.Query.Compilation

/-!
# Values and the operators they are written in

An operator is written around its operand by marks which no operand holds where they stand: every
character of an opening mark, and the first character of a closing one, is one that operands do not
allow. So a value falls into marks and operand in one way only (`Form.eq_of_write_eq`). Two forms
with different marks never fit one value, the order in which forms are tried does not matter, and a
value is compiled to an operator exactly if it is the writing of one.
-/

namespace RowAccess

namespace Form

variable {allowed : Char → Bool}

/-! ## One form -/

theorem dropStart?_eq_some_iff {start whole rest : List Char} :
    dropStart? start whole = some rest ↔ whole = start ++ rest := by
  induction start generalizing whole with
  | nil =>
    rw [dropStart?, Option.some_inj, List.nil_append]
  | cons s start ih =>
    cases whole with
    | nil =>
      rw [dropStart?]
      exact ⟨nofun, nofun⟩
    | cons c whole =>
      rw [dropStart?, Option.ite_none_right_eq_some, ih, List.cons_append, List.cons.injEq,
        eq_comm (a := c)]

theorem dropEnd?_eq_some_iff {ending whole rest : List Char} :
    dropEnd? ending whole = some rest ↔ whole = rest ++ ending := by
  rw [dropEnd?, Option.map_eq_some_iff]
  constructor
  · rintro ⟨reversed, hdrop, rfl⟩
    rw [dropStart?_eq_some_iff, List.reverse_eq_iff, List.reverse_append,
      List.reverse_reverse] at hdrop
    exact hdrop
  · rintro rfl
    refine ⟨rest.reverse, ?_, List.reverse_reverse rest⟩
    rw [dropStart?_eq_some_iff, List.reverse_append]

/-- A text that can be an operand: it is not empty, and all of its characters are allowed. -/
def IsOperand (allowed : Char → Bool) (operand : String) : Prop :=
  operand ≠ "" ∧ ∀ c ∈ operand.toList, allowed c = true

theorem read?_eq_some_iff {form : Form} {value operand : String} :
    form.read? allowed value = some operand ↔
      IsOperand allowed operand ∧ value = form.write operand := by
  have hwrite : value = form.write operand ↔
      value.toList = form.opening.toList ++ (operand.toList ++ form.closing.toList) := by
    rw [← String.toList_inj, write, String.toList_append, String.toList_append, List.append_assoc]
  have hoperand : ∀ cs : List Char,
      (!cs.isEmpty && cs.all allowed) = true ↔ IsOperand allowed (String.ofList cs) := by
    intro cs
    rw [IsOperand, Bool.and_eq_true, List.all_eq_true, ne_eq, ← String.toList_eq_nil_iff,
      String.toList_ofList, Bool.not_eq_true', List.isEmpty_eq_false_iff]
  rw [hwrite, read?]
  simp only [Option.bind_eq_bind, Option.bind_eq_some_iff, dropStart?_eq_some_iff,
    dropEnd?_eq_some_iff, Option.ite_none_right_eq_some, hoperand]
  constructor
  · rintro ⟨_, hvalue, cs, rfl, hcs, hsame⟩
    obtain rfl := Option.some.inj hsame
    rw [String.toList_ofList]
    exact ⟨hcs, hvalue⟩
  · rintro ⟨hallowed, hvalue⟩
    refine ⟨_, hvalue, operand.toList, rfl, ?_, congrArg some String.ofList_toList⟩
    rwa [String.ofList_toList]

/-! ## Marks that no operand holds -/

/-- No operand begins like an opening mark or goes on like a closing one. -/
structure Delimits (allowed : Char → Bool) (form : Form) : Prop where
  opening : ∀ c ∈ form.opening.toList, allowed c = false
  closing : ∀ c ∈ form.closing.toList.head?, allowed c = false

/-- What is written in a form can be cut where its characters begin and cease to be allowed. -/
theorem Delimits.cut_write {form : Form} (h : form.Delimits allowed) {operand : String}
    (hoperand : IsOperand allowed operand) :
    let cs := (form.write operand).toList
    let rest := cs.dropWhile fun c ↦ !allowed c
    cs.takeWhile (fun c ↦ !allowed c) = form.opening.toList ∧
      rest.takeWhile allowed = operand.toList ∧ rest.dropWhile allowed = form.closing.toList := by
  intro cs rest
  have hcs : cs = form.opening.toList ++ (operand.toList ++ form.closing.toList) := by
    simp only [cs, write, String.toList_append, List.append_assoc]
  obtain ⟨first, others, hfirst⟩ :=
    List.exists_cons_of_ne_nil (mt String.toList_eq_nil_iff.mp hoperand.1)
  have hopening : ∀ c ∈ form.opening.toList, (!allowed c) = true := by
    intro c hc
    rw [h.opening c hc, Bool.not_false]
  have hstop : (!allowed first) = false := by
    rw [hoperand.2 first (hfirst ▸ List.mem_cons_self), Bool.not_true]
  have hrest : rest = operand.toList ++ form.closing.toList := by
    simp only [rest, hcs, List.dropWhile_append_of_pos hopening, hfirst, List.cons_append,
      List.dropWhile_cons, hstop, Bool.false_eq_true, if_false]
  have hclosing : form.closing.toList.takeWhile allowed = [] ∧
      form.closing.toList.dropWhile allowed = form.closing.toList := by
    cases hc : form.closing.toList with
    | nil => exact ⟨rfl, rfl⟩
    | cons c others =>
      have hmark : allowed c = false := h.closing c (by rw [hc]; rfl)
      rw [List.takeWhile_cons, List.dropWhile_cons, hmark]
      exact ⟨rfl, rfl⟩
  refine ⟨?_, ?_, ?_⟩
  · rw [hcs, List.takeWhile_append_of_pos hopening, hfirst, List.cons_append, List.takeWhile_cons,
      hstop, if_neg Bool.false_ne_true, List.append_nil]
  · rw [hrest, List.takeWhile_append_of_pos hoperand.2, hclosing.1, List.append_nil]
  · rw [hrest, List.dropWhile_append_of_pos hoperand.2, hclosing.2]

/-- One value is written with the same marks around the same operand only. -/
theorem eq_of_write_eq {form other : Form} (hform : form.Delimits allowed)
    (hother : other.Delimits allowed) {operand operand' : String}
    (hoperand : IsOperand allowed operand) (hoperand' : IsOperand allowed operand')
    (h : form.write operand = other.write operand') :
    form.opening = other.opening ∧ form.closing = other.closing ∧ operand = operand' := by
  obtain ⟨hopening, hmiddle, hclosing⟩ := hform.cut_write hoperand
  obtain ⟨hopening', hmiddle', hclosing'⟩ := hother.cut_write hoperand'
  rw [h] at hopening hmiddle hclosing
  exact ⟨String.toList_inj.mp (hopening.symm.trans hopening'),
    String.toList_inj.mp (hclosing.symm.trans hclosing'),
    String.toList_inj.mp (hmiddle.symm.trans hmiddle')⟩

/-! ## Several forms -/

/-- Every form of a list is told from the others by its marks, and from operands by its
characters. -/
structure Unambiguous (allowed : Char → Bool) (forms : List Form) : Prop where
  delimits : ∀ form ∈ forms, form.Delimits allowed
  eq_of_marks : ∀ form ∈ forms, ∀ other ∈ forms,
    form.opening = other.opening → form.closing = other.closing → form = other

variable {forms : List Form} {value operand : String}

theorem unambiguous_of_marks
    (hopening : ∀ form ∈ forms, (form.opening.toList.all fun c ↦ !allowed c) = true)
    (hclosing : ∀ form ∈ forms, (form.closing.toList.head?.all fun c ↦ !allowed c) = true)
    (hmarks : ∀ form ∈ forms, ∀ other ∈ forms,
      form.opening = other.opening → form.closing = other.closing → form = other) :
    Unambiguous allowed forms where
  delimits form hform := by
    have hfirst := hopening form hform
    have hlast := hclosing form hform
    simp only [List.all_eq_true, Option.all_eq_true, Bool.not_eq_true'] at hfirst hlast
    exact ⟨hfirst, hlast⟩
  eq_of_marks := hmarks

theorem Unambiguous.perm (h : Unambiguous allowed forms) {others : List Form}
    (hperm : others.Perm forms) : Unambiguous allowed others where
  delimits form hform := h.delimits form (hperm.mem_iff.mp hform)
  eq_of_marks form hform other hother :=
    h.eq_of_marks form (hperm.mem_iff.mp hform) other (hperm.mem_iff.mp hother)

/-- A value is written in one form at most, and around one operand. -/
theorem Unambiguous.eq_of_write_eq (h : Unambiguous allowed forms) {form other : Form}
    (hform : form ∈ forms) (hother : other ∈ forms) {operand' : String}
    (hoperand : IsOperand allowed operand) (hoperand' : IsOperand allowed operand')
    (hwrite : form.write operand = other.write operand') :
    form = other ∧ operand = operand' := by
  obtain ⟨hopening, hclosing, hsame⟩ := Form.eq_of_write_eq (h.delimits form hform)
    (h.delimits other hother) hoperand hoperand' hwrite
  exact ⟨h.eq_of_marks form hform other hother hopening hclosing, hsame⟩

theorem exists_of_match? {lookup : Lookup}
    (h : match? forms allowed value = some (lookup, operand)) :
    ∃ form ∈ forms, form.lookup = lookup ∧ IsOperand allowed operand ∧
      value = form.write operand := by
  rw [match?] at h
  obtain ⟨form, hform, hread⟩ := List.exists_of_findSome?_eq_some h
  obtain ⟨operand', hoperand, hpair⟩ := Option.map_eq_some_iff.mp hread
  obtain ⟨rfl, rfl⟩ := Prod.mk.inj hpair
  exact ⟨form, hform, rfl, read?_eq_some_iff.mp hoperand⟩

/-- The first form that fits a value is the only one. -/
theorem Unambiguous.match?_write (h : Unambiguous allowed forms) {form : Form}
    (hform : form ∈ forms) (hoperand : IsOperand allowed operand) :
    match? forms allowed (form.write operand) = some (form.lookup, operand) := by
  cases hmatch : match? forms allowed (form.write operand) with
  | none =>
    have hread := List.findSome?_eq_none_iff.mp hmatch form hform
    rw [read?_eq_some_iff.mpr ⟨hoperand, rfl⟩] at hread
    exact nomatch hread
  | some found =>
    obtain ⟨lookup, operand'⟩ := found
    obtain ⟨other, hother, rfl, hoperand', hwrite⟩ := exists_of_match? hmatch
    obtain ⟨rfl, rfl⟩ := h.eq_of_write_eq hform hother hoperand hoperand' hwrite
    rfl

theorem match?_eq_none_iff :
    match? forms allowed value = none ↔
      ∀ form ∈ forms, ∀ operand, IsOperand allowed operand → value ≠ form.write operand := by
  rw [match?, List.findSome?_eq_none_iff]
  refine forall₂_congr fun form _ ↦ ?_
  rw [Option.map_eq_none_iff, Option.eq_none_iff_forall_ne_some]
  refine forall_congr' fun operand ↦ ?_
  rw [ne_eq, read?_eq_some_iff, not_and]

theorem Unambiguous.match?_perm (h : Unambiguous allowed forms) {others : List Form}
    (hperm : others.Perm forms) (value : String) :
    match? others allowed value = match? forms allowed value := by
  cases hmatch : match? forms allowed value with
  | none =>
    rw [match?_eq_none_iff] at hmatch ⊢
    exact fun form hform ↦ hmatch form (hperm.mem_iff.mp hform)
  | some found =>
    obtain ⟨lookup, operand⟩ := found
    obtain ⟨form, hform, rfl, hoperand, rfl⟩ := exists_of_match? hmatch
    exact (h.perm hperm).match?_write (hperm.mem_iff.mpr hform) hoperand

end Form

/-- Whether a stored value meets the condition that a value of a filter asks for. -/
def Json.meetsFilter (stored : Json) (kind : FieldKind) (path value : String) : Bool :=
  match compileValue (some kind) path value with
  | some (.leaf c) => c.holdsOf stored
  | _ => false

/-! ## The operators on text -/

deriving instance DecidableEq for Form

namespace Lookup

/-- The lookups that a value of a filter on text can ask for by an operator. -/
def textOperators : List Lookup :=
  [.startsWith, .endsWith, .contains, .iStartsWith, .iEndsWith, .iContains, .iExact]

/-- How a value asks for a lookup: a star stands for what a text may begin or end with besides the
operand, and `|i` for ignoring case. -/
def written (operand : String) : Lookup → String
  | startsWith => operand ++ "*"
  | endsWith => "*" ++ operand
  | contains => "*" ++ operand ++ "*"
  | iStartsWith => operand ++ "*|i"
  | iEndsWith => "*" ++ operand ++ "|i"
  | iContains => "*" ++ operand ++ "*|i"
  | iExact => operand ++ "|i"
  | exact | gt | gte | lt | lte | lenEq | lenGt | arrayContains => operand

end Lookup

namespace Form

theorem unambiguous_onText : Unambiguous isPlainChar onText :=
  unambiguous_of_marks (by decide) (by decide) (by decide)

theorem write_onText {form : Form} (h : form ∈ onText) (operand : String) :
    form.lookup ∈ Lookup.textOperators ∧ form.write operand = form.lookup.written operand := by
  simp only [onText, List.mem_cons, List.not_mem_nil, or_false] at h
  rcases h with rfl | rfl | rfl | rfl | rfl | rfl | rfl <;>
    simp [Lookup.textOperators, Lookup.written, write]

theorem exists_onText {lookup : Lookup} (h : lookup ∈ Lookup.textOperators) :
    ∃ form ∈ onText, form.lookup = lookup := by
  have hall : ∀ lookup ∈ Lookup.textOperators, ∃ form ∈ onText, form.lookup = lookup := by decide
  exact hall lookup h

/-- No operator is found in a value exactly if it is the writing of none. -/
theorem match?_onText_eq_none_iff {value : String} :
    match? onText isPlainChar value = none ↔ ∀ lookup ∈ Lookup.textOperators, ∀ operand,
      IsOperand isPlainChar operand → value ≠ lookup.written operand := by
  rw [match?_eq_none_iff]
  constructor
  · intro h lookup hlookup operand hoperand
    obtain ⟨form, hform, rfl⟩ := exists_onText hlookup
    rw [← (write_onText hform operand).2]
    exact h form hform operand hoperand
  · intro h form hform operand hoperand
    obtain ⟨hlookup, hwrite⟩ := write_onText hform operand
    rw [hwrite]
    exact h form.lookup hlookup operand hoperand

end Form

section TextOperators

variable {kind : FieldKind} {path value operand : String} {lookup : Lookup}

/-- A value of a filter on text asks for what the first form that fits it says, or for itself. -/
theorem compileValue_text (hkind : kind.isTextLike = true) (hpath : path ≠ "")
    (hvalue : value ≠ "") :
    compileValue (some kind) path value = some (.leaf
      (match Form.match? Form.onText isPlainChar value with
        | some (lookup, operand) => ⟨path, lookup, .text operand⟩
        | none => ⟨path, .exact, .text value⟩)) := by
  have hfilled : (path.isEmpty || value.isEmpty) = false := by simp [hpath, hvalue]
  cases kind with
  | char | text | json =>
    rw [compileValue, hfilled, if_neg Bool.false_ne_true]
    cases Form.match? Form.onText isPlainChar value <;> rfl
  | integer | date | dateTime | boolean | nullBoolean | array | auto | foreignKey | manyToMany =>
    exact nomatch hkind

theorem Form.IsOperand.written_ne_empty (h : IsOperand isPlainChar operand) (lookup : Lookup) :
    lookup.written operand ≠ "" := by
  cases lookup <;> simp [Lookup.written, h.1]

theorem compileValue_written (hkind : kind.isTextLike = true) (hpath : path ≠ "")
    (hlookup : lookup ∈ Lookup.textOperators) (hoperand : Form.IsOperand isPlainChar operand) :
    compileValue (some kind) path (lookup.written operand)
      = some (.leaf ⟨path, lookup, .text operand⟩) := by
  obtain ⟨form, hform, rfl⟩ := Form.exists_onText hlookup
  rw [compileValue_text hkind hpath (hoperand.written_ne_empty form.lookup),
    ← (Form.write_onText hform operand).2, Form.unambiguous_onText.match?_write hform hoperand]

theorem compileValue_unwritten (hkind : kind.isTextLike = true) (hpath : path ≠ "")
    (hvalue : value ≠ "") (hother : ∀ lookup ∈ Lookup.textOperators, ∀ operand,
      Form.IsOperand isPlainChar operand → value ≠ lookup.written operand) :
    compileValue (some kind) path value = some (.leaf ⟨path, .exact, .text value⟩) := by
  rw [compileValue_text hkind hpath hvalue, Form.match?_onText_eq_none_iff.mpr hother]

end TextOperators

/-- The operators on text are written in one way, and read back as they are written. At most one of
their forms fits a value, so they may be tried in any order; what is written for a lookup and an
operand asks for this lookup of this operand; what asks for a lookup other than equality is written
so; and every other value asks for itself. -/
theorem text_operators_are_unambiguous (kind : FieldKind) (hkind : kind.isTextLike = true)
    (path : String) (hpath : path ≠ "") :
    (∀ value, ∀ form ∈ Form.onText, ∀ other ∈ Form.onText,
      (form.read? isPlainChar value).isSome = true →
        (other.read? isPlainChar value).isSome = true → form = other) ∧
    (∀ forms, forms.Perm Form.onText → ∀ value,
      Form.match? forms isPlainChar value = Form.match? Form.onText isPlainChar value) ∧
    (∀ lookup ∈ Lookup.textOperators, ∀ operand, Form.IsOperand isPlainChar operand →
      compileValue (some kind) path (lookup.written operand)
        = some (.leaf ⟨path, lookup, .text operand⟩)) ∧
    (∀ value c, compileValue (some kind) path value = some (.leaf c) → c.lookup ≠ .exact →
      c.path = path ∧ c.lookup ∈ Lookup.textOperators ∧ ∃ operand,
        Form.IsOperand isPlainChar operand ∧ c.operand = .text operand ∧
          value = c.lookup.written operand) ∧
    ∀ value, value ≠ "" → (∀ lookup ∈ Lookup.textOperators, ∀ operand,
        Form.IsOperand isPlainChar operand → value ≠ lookup.written operand) →
      compileValue (some kind) path value = some (.leaf ⟨path, .exact, .text value⟩) := by
  refine ⟨?_, ?_, ?_, ?_, ?_⟩
  · intro value form hform other hother hread hread'
    obtain ⟨operand, hoperand⟩ := Option.isSome_iff_exists.mp hread
    obtain ⟨operand', hoperand'⟩ := Option.isSome_iff_exists.mp hread'
    obtain ⟨hallowed, rfl⟩ := Form.read?_eq_some_iff.mp hoperand
    obtain ⟨hallowed', hwrite⟩ := Form.read?_eq_some_iff.mp hoperand'
    exact (Form.unambiguous_onText.eq_of_write_eq hform hother hallowed hallowed' hwrite).1
  · intro forms hperm value
    exact Form.unambiguous_onText.match?_perm hperm value
  · intro lookup hlookup operand hoperand
    exact compileValue_written hkind hpath hlookup hoperand
  · intro value c hc hexact
    have hvalue : value ≠ "" := by
      rintro rfl
      rw [compileValue_empty] at hc
      exact nomatch hc
    rw [compileValue_text hkind hpath hvalue, Option.some_inj, Predicate.leaf.injEq] at hc
    subst hc
    cases hmatch : Form.match? Form.onText isPlainChar value with
    | none =>
      rw [hmatch] at hexact
      exact absurd rfl hexact
    | some found =>
      obtain ⟨lookup, operand⟩ := found
      obtain ⟨form, hform, rfl, hoperand, rfl⟩ := Form.exists_of_match? hmatch
      obtain ⟨hlookup, hwrite⟩ := Form.write_onText hform operand
      exact ⟨rfl, hlookup, operand, hoperand, rfl, hwrite⟩
  · intro value hvalue hother
    exact compileValue_unwritten hkind hpath hvalue hother

/-- A line break is as good as any other character of an operand, in whatever order the forms are
tried; with a star inside, nothing but the value itself is asked for. -/
theorem line_break_is_plain :
    FieldKind.json.isTextLike = true ∧ "data" ≠ "" ∧
      Form.match? Form.onText.reverse isPlainChar "*a\nb*|i" = some (.iContains, "a\nb") ∧
      compileValue (some .json) "data" "*a\nb*|i"
        = some (.leaf ⟨"data", .iContains, .text "a\nb"⟩) ∧
      compileValue (some .json) "data" "*a*b*" = some (.leaf ⟨"data", .exact, .text "*a*b*"⟩) := by
  obtain ⟨-, horder, hwritten, -, hother⟩ :=
    text_operators_are_unambiguous .json rfl "data" (by decide)
  refine ⟨rfl, by decide, ?_, ?_, ?_⟩
  · rw [horder _ (List.reverse_perm _)]
    decide
  · exact hwritten .iContains (by decide) "a\nb" (by simp [Form.IsOperand, isPlainChar])
  · exact hother "*a*b*" (by decide) (Form.match?_onText_eq_none_iff.mp (by decide))

end RowAccess

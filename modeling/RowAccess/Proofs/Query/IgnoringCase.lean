import RowAccess.Proofs.Query.Operators
import RowAccess.Proofs.Text.LowerCase
import RowAccess.Proofs.Text.Split

/-!
# Text filters that ignore case

A text filter that ignores case compares lower-cased texts, and is meant to find whatever the same
filter finds with regard to case. It does so for whole texts. For beginnings, endings and texts
inside of others it does so unless the operand ends or begins in a capital sigma, whose lower case
in the operand need not be the one that it has in the stored text.
-/

namespace RowAccess

section Text

variable {kind : FieldKind} {path operand : String}

theorem Json.meetsFilter_written (hkind : kind.isTextLike = true) (hpath : path ≠ "")
    {lookup : Lookup} (hlookup : lookup ∈ Lookup.textOperators)
    (hoperand : Form.IsOperand isPlainChar operand) (stored : Json) :
    stored.meetsFilter kind path (lookup.written operand)
      = Condition.holdsOf ⟨path, lookup, .text operand⟩ stored := by
  rw [meetsFilter, compileValue_written hkind hpath hlookup hoperand]

theorem Form.IsOperand.ne_written (h : Form.IsOperand isPlainChar operand) :
    ∀ lookup ∈ Lookup.textOperators, ∀ other : String, operand ≠ lookup.written other := by
  have hmark : ∀ lookup ∈ Lookup.textOperators, ∀ other : String,
      '*' ∈ (lookup.written other).toList ∨ '|' ∈ (lookup.written other).toList := by
    intro lookup hlookup other
    simp only [Lookup.textOperators, List.mem_cons, List.not_mem_nil, or_false] at hlookup
    rcases hlookup with rfl | rfl | rfl | rfl | rfl | rfl | rfl <;> simp [Lookup.written]
  rintro lookup hlookup other rfl
  rcases hmark lookup hlookup other with hstar | hbar
  · exact absurd (h.2 _ hstar) (by decide)
  · exact absurd (h.2 _ hbar) (by decide)

theorem Json.meetsFilter_plain (hkind : kind.isTextLike = true) (hpath : path ≠ "")
    (hoperand : Form.IsOperand isPlainChar operand) (stored : Json) :
    stored.meetsFilter kind path operand
      = Condition.holdsOf ⟨path, .exact, .text operand⟩ stored := by
  rw [meetsFilter, compileValue_unwritten hkind hpath hoperand.1 fun lookup hlookup other _ ↦
    hoperand.ne_written lookup hlookup other]

end Text

/-! ## Stored text -/

namespace Condition

variable {path operand text : String}

theorem holdsOf_exact_text :
    holdsOf ⟨path, .exact, .text operand⟩ (.text text) = true ↔ text = operand :=
  beq_iff_eq.trans eq_comm

theorem holdsOf_iExact_text :
    holdsOf ⟨path, .iExact, .text operand⟩ (.text text) = true ↔
      Text.lower text.toList = Text.lower operand.toList :=
  beq_iff_eq

theorem holdsOf_startsWith_text :
    holdsOf ⟨path, .startsWith, .text operand⟩ (.text text) = true ↔
      operand.toList <+: text.toList :=
  List.isPrefixOf_iff_prefix

theorem holdsOf_iStartsWith_text :
    holdsOf ⟨path, .iStartsWith, .text operand⟩ (.text text) = true ↔
      Text.lower operand.toList <+: Text.lower text.toList :=
  List.isPrefixOf_iff_prefix

theorem holdsOf_endsWith_text :
    holdsOf ⟨path, .endsWith, .text operand⟩ (.text text) = true ↔
      operand.toList <:+ text.toList :=
  List.isSuffixOf_iff_suffix

theorem holdsOf_iEndsWith_text :
    holdsOf ⟨path, .iEndsWith, .text operand⟩ (.text text) = true ↔
      Text.lower operand.toList <:+ Text.lower text.toList :=
  List.isSuffixOf_iff_suffix

theorem holdsOf_contains_text :
    holdsOf ⟨path, .contains, .text operand⟩ (.text text) = true ↔
      operand.toList <:+: text.toList :=
  Text.occursIn_iff_isInfix

theorem holdsOf_iContains_text :
    holdsOf ⟨path, .iContains, .text operand⟩ (.text text) = true ↔
      Text.lower operand.toList <:+: Text.lower text.toList :=
  Text.occursIn_iff_isInfix

end Condition

/-- Ignoring case, a text filter finds what it finds with regard to case, with this exception. The
operand of a beginning may end in a sigma, and the stored text go on with a cased character; the
operand of an ending may begin in a sigma, with a cased character before it in the stored text. Then
the text is not found. And for an operand that ends or begins so, some text that contains it is not
found by what it contains. -/
theorem ignoring_case_finds_iff (kind : FieldKind) (hkind : kind.isTextLike = true) (path : String)
    (hpath : path ≠ "") (operand : String) (hoperand : Form.IsOperand isPlainChar operand) :
    let finds := fun value text : String ↦ (Json.text text).meetsFilter kind path value = true
    let cs := operand.toList
    (∀ text, finds operand text → finds (operand ++ "|i") text) ∧
    (∀ text, finds (operand ++ "*") text →
      (finds (operand ++ "*|i") text ↔
        ¬(Text.EndsInSigma cs ∧ Text.startsCased (text.toList.drop cs.length) = true))) ∧
    (∀ text, finds ("*" ++ operand) text →
      (finds ("*" ++ operand ++ "|i") text ↔
        ¬(Text.BeginsInSigma cs ∧ Text.startsCased (text.toList.reverse.drop cs.length) = true))) ∧
    ((∀ text, finds ("*" ++ operand ++ "*") text → finds ("*" ++ operand ++ "*|i") text) ↔
      ¬Text.EndsInSigma cs ∧ ¬Text.BeginsInSigma cs) := by
  intro finds cs
  have hfinds : ∀ lookup ∈ Lookup.textOperators, ∀ text, finds (lookup.written operand) text ↔
      Condition.holdsOf ⟨path, lookup, .text operand⟩ (.text text) = true := by
    intro lookup hlookup text
    rw [← Json.meetsFilter_written hkind hpath hlookup hoperand]
  refine ⟨?_, ?_, ?_, ?_⟩
  · intro text h
    refine (hfinds .iExact (by decide) text).mpr (Condition.holdsOf_iExact_text.mpr ?_)
    dsimp only [finds] at h
    rw [Json.meetsFilter_plain hkind hpath hoperand] at h
    rw [Condition.holdsOf_exact_text.mp h]
  · intro text h
    obtain ⟨rest, hrest⟩ :=
      Condition.holdsOf_startsWith_text.mp ((hfinds .startsWith (by decide) text).mp h)
    refine (hfinds .iStartsWith (by decide) text).trans
      (Condition.holdsOf_iStartsWith_text.trans ?_)
    rw [← hrest, Text.lower_isPrefix_iff, List.drop_left]
  · intro text h
    obtain ⟨rest, hrest⟩ :=
      Condition.holdsOf_endsWith_text.mp ((hfinds .endsWith (by decide) text).mp h)
    refine (hfinds .iEndsWith (by decide) text).trans (Condition.holdsOf_iEndsWith_text.trans ?_)
    have hdrop : (rest ++ cs).reverse.drop cs.length = rest.reverse := by
      have hlength : cs.length = cs.reverse.length := List.length_reverse.symm
      rw [List.reverse_append, hlength, List.drop_left]
    rw [← hrest, Text.lower_isSuffix_iff, hdrop]
  · rw [← Text.forall_lower_isInfix_iff]
    constructor
    · intro h text hinside
      have htext : (String.ofList text).toList = text := String.toList_ofList
      rw [← htext] at hinside
      have hfound := h (String.ofList text)
        ((hfinds .contains (by decide) _).mpr (Condition.holdsOf_contains_text.mpr hinside))
      have hlower :=
        Condition.holdsOf_iContains_text.mp ((hfinds .iContains (by decide) _).mp hfound)
      rwa [htext] at hlower
    · intro h text hfound
      have hinside :=
        Condition.holdsOf_contains_text.mp ((hfinds .contains (by decide) text).mp hfound)
      exact (hfinds .iContains (by decide) text).mpr
        (Condition.holdsOf_iContains_text.mpr (h text.toList hinside))

/-! ## Streets -/

namespace Streets

theorem isOperand_street : Form.IsOperand isPlainChar "ΟΔΟΣ" := by
  simp [Form.IsOperand, isPlainChar]

/-- The name of a street goes on with a number, and is found by its beginning in either way. -/
theorem numbered_street_is_found :
    FieldKind.text.isTextLike = true ∧ "name" ≠ "" ∧ Form.IsOperand isPlainChar "ΟΔΟΣ" ∧
      (Json.text "ΟΔΟΣ 7").meetsFilter .text "name" "ΟΔΟΣ*" = true ∧
      (Json.text "ΟΔΟΣ 7").meetsFilter .text "name" "ΟΔΟΣ*|i" = true := by
  obtain ⟨-, hstarts, -⟩ :=
    ignoring_case_finds_iff .text rfl "name" (by decide) "ΟΔΟΣ" isOperand_street
  have hfound : (Json.text "ΟΔΟΣ 7").meetsFilter .text "name" "ΟΔΟΣ*" = true := by decide +kernel
  refine ⟨rfl, by decide, isOperand_street, hfound, (hstarts "ΟΔΟΣ 7" hfound).mpr ?_⟩
  rintro ⟨-, hcased⟩
  exact absurd hcased (by decide +kernel)

/-- The word for a street begins a longer one, and does not begin it any more without regard to
case; nor does a sigma end a word that it ends. -/
theorem longer_street_is_not_found :
    Form.IsOperand isPlainChar "ΟΔΟΣ" ∧
      (Json.text "ΟΔΟΣΗΜΑΝΣΗ").meetsFilter .text "name" "ΟΔΟΣ*" = true ∧
      (Json.text "ΟΔΟΣΗΜΑΝΣΗ").meetsFilter .text "name" "ΟΔΟΣ*|i" = false ∧
      (Json.text "ΟΔΟΣΗΜΑΝΣΗ").meetsFilter .text "name" "*ΟΔΟΣ*" = true ∧
      (Json.text "ΟΔΟΣΗΜΑΝΣΗ").meetsFilter .text "name" "*ΟΔΟΣ*|i" = false ∧
      (Json.text "ΟΔΟΣ").meetsFilter .text "name" "*Σ" = true ∧
      (Json.text "ΟΔΟΣ").meetsFilter .text "name" "*Σ|i" = false :=
  ⟨isOperand_street, by decide +kernel⟩

end Streets

end RowAccess

import RowAccess.Text.Split

/-!
# Pieces of text

A text without a separator is its own only piece, and a piece ends where the separator stands. The
pieces of a text are all of it, with the separators between them. What is stripped from a text
stands around it: the text itself begins and ends with other characters.
-/

namespace RowAccess.Text

/-! ## Single separators -/

theorem splitOn_eq (sep : Char) (cs : List Char) : splitOn sep cs = cs.splitOn sep := by
  induction cs with
  | nil => rw [splitOn, List.splitOn_nil]
  | cons c cs ih =>
    obtain ⟨piece, pieces, hpieces⟩ := List.exists_cons_of_ne_nil (List.splitOn_ne_nil sep cs)
    rw [splitOn, ih, List.splitOn_cons_eq_if_modifyHead, hpieces]
    simp only [beq_iff_eq]
    rfl

theorem splitOn_eq_singleton {sep : Char} {cs : List Char} (h : sep ∉ cs) :
    splitOn sep cs = [cs] := by
  rw [splitOn_eq, List.splitOn_eq_singleton h]

theorem splitOn_intercalate {sep : Char} {pieces : List (List Char)} (hne : pieces ≠ [])
    (h : ∀ piece ∈ pieces, sep ∉ piece) : splitOn sep ([sep].intercalate pieces) = pieces := by
  rw [splitOn_eq, List.splitOn_intercalate sep h hne]

theorem mem_intercalate {sep c : Char} {pieces : List (List Char)}
    (h : c ∈ [sep].intercalate pieces) : c = sep ∨ ∃ piece ∈ pieces, c ∈ piece := by
  induction pieces with
  | nil =>
    rw [List.intercalate_nil] at h
    exact absurd h List.not_mem_nil
  | cons piece rest ih =>
    cases rest with
    | nil =>
      rw [List.intercalate_singleton] at h
      exact .inr ⟨piece, List.mem_cons_self, h⟩
    | cons next rest =>
      rw [List.intercalate_cons_cons, List.append_assoc, List.mem_append, List.mem_append,
        List.mem_singleton] at h
      rcases h with h | h | h
      · exact .inr ⟨piece, List.mem_cons_self, h⟩
      · exact .inl h
      · exact (ih h).imp_right fun ⟨other, hother, hmem⟩ ↦
          ⟨other, List.mem_cons_of_mem _ hother, hmem⟩

/-! ## Doubled separators -/

theorem splitOnDouble_ne_nil (sep : Char) (cs : List Char) : splitOnDouble sep cs ≠ [] := by
  fun_induction splitOnDouble sep cs with
  | case1 => exact List.cons_ne_nil _ _
  | case2 => exact List.cons_ne_nil _ _
  | case3 => exact List.cons_ne_nil _ _
  | case4 c d cs _ _ =>
    cases splitOnDouble sep (d :: cs) <;> exact List.cons_ne_nil _ _

theorem splitOnDouble_eq_singleton {sep : Char} {cs : List Char} (h : ¬[sep, sep] <:+: cs) :
    splitOnDouble sep cs = [cs] := by
  fun_induction splitOnDouble sep cs with
  | case1 => rfl
  | case2 => rfl
  | case3 c d cs heq =>
    rw [heq.1, heq.2] at h
    exact absurd (List.prefix_append [sep, sep] cs).isInfix h
  | case4 c d cs _ ih =>
    have hrest : ¬[sep, sep] <:+: d :: cs := fun hi ↦ h (hi.trans (List.suffix_cons c _).isInfix)
    rw [ih hrest, consFirst]

theorem not_isInfix_of_splitOnDouble {sep : Char} {cs piece : List Char}
    (h : splitOnDouble sep cs = [piece]) : ¬[sep, sep] <:+: cs := by
  fun_induction splitOnDouble sep cs generalizing piece with
  | case1 => exact fun hi ↦ Nat.not_succ_le_zero 1 hi.length_le
  | case2 c => exact fun hi ↦ Nat.not_succ_le_self 1 hi.length_le
  | case3 c d cs heq ih => exact absurd (List.cons.inj h).2 (splitOnDouble_ne_nil sep cs)
  | case4 c d cs hne ih =>
    cases hrest : splitOnDouble sep (d :: cs) with
    | nil => exact absurd hrest (splitOnDouble_ne_nil sep (d :: cs))
    | cons first pieces =>
      rw [hrest, consFirst] at h
      rw [(List.cons.inj h).2] at hrest
      intro hi
      rcases List.infix_cons_iff.mp hi with hstart | hlater
      · rw [List.cons_prefix_cons, List.cons_prefix_cons] at hstart
        exact hne ⟨hstart.1.symm, hstart.2.1.symm⟩
      · exact ih hrest hlater

/-- What stands before a doubled separator is a piece if nothing splits it, and if it lends no
separator of its own to the doubled one. -/
theorem splitOnDouble_append {sep : Char} {cs : List Char} (h : ¬[sep, sep] <:+: cs)
    (hlast : cs.getLast? ≠ some sep) (rest : List Char) :
    splitOnDouble sep (cs ++ sep :: sep :: rest) = cs :: splitOnDouble sep rest := by
  induction cs with
  | nil => rw [List.nil_append, splitOnDouble, if_pos ⟨rfl, rfl⟩]
  | cons c cs ih =>
    have hrest : ¬[sep, sep] <:+: cs := fun hi ↦ h (hi.trans (List.suffix_cons c cs).isInfix)
    cases cs with
    | nil =>
      have hc : c ≠ sep := fun e ↦ hlast (e ▸ rfl)
      have htail := ih hrest nofun
      rw [List.nil_append] at htail
      rw [List.singleton_append, splitOnDouble, if_neg fun e ↦ hc e.1, htail, consFirst]
    | cons d cs =>
      have hpair : ¬(c = sep ∧ d = sep) := fun ⟨hc, hd⟩ ↦ by
        rw [hc, hd] at h
        exact h (List.prefix_append [sep, sep] cs).isInfix
      have htail := ih hrest (by rwa [List.getLast?_cons_cons] at hlast)
      rw [List.cons_append] at htail
      rw [List.cons_append, List.cons_append, splitOnDouble, if_neg hpair, htail, consFirst]

theorem intercalate_splitOnDouble (sep : Char) (cs : List Char) :
    [sep, sep].intercalate (splitOnDouble sep cs) = cs := by
  fun_induction splitOnDouble sep cs with
  | case1 => rfl
  | case2 => rfl
  | case3 c d cs heq ih =>
    rw [List.intercalate_cons_of_ne_nil (splitOnDouble_ne_nil sep cs), ih, heq.1, heq.2]
    rfl
  | case4 c d cs _ ih =>
    obtain ⟨first, pieces, hpieces⟩ :=
      List.exists_cons_of_ne_nil (splitOnDouble_ne_nil sep (d :: cs))
    rw [hpieces] at ih
    rw [hpieces, consFirst]
    cases pieces with
    | nil => simpa using ih
    | cons next pieces =>
      rw [List.intercalate_cons_cons] at ih ⊢
      simpa using ih

/-- Behind its first piece, a text is split as its rest is. -/
theorem exists_splitOnDouble_eq_of_cons_cons {sep : Char} {cs first next : List Char}
    {rest : List (List Char)} (h : splitOnDouble sep cs = first :: next :: rest) :
    ∃ tail, splitOnDouble sep tail = next :: rest := by
  fun_induction splitOnDouble sep cs generalizing first with
  | case1 => exact nomatch h
  | case2 => exact nomatch h
  | case3 c d cs heq ih => exact ⟨cs, (List.cons.inj h).2⟩
  | case4 c d cs _ ih =>
    obtain ⟨piece, pieces, hpieces⟩ :=
      List.exists_cons_of_ne_nil (splitOnDouble_ne_nil sep (d :: cs))
    rw [hpieces, consFirst] at h
    rw [(List.cons.inj h).2] at hpieces
    exact ih hpieces

/-! ## Parts of a text -/

theorem occursIn_iff_isInfix {part whole : List Char} :
    occursIn part whole = true ↔ part <:+: whole := by
  induction whole with
  | nil => rw [occursIn, List.isEmpty_iff, List.infix_nil]
  | cons c cs ih =>
    rw [occursIn, Bool.or_eq_true, List.isPrefixOf_iff_prefix, ih, List.infix_cons_iff]

/-! ## What stands around a text -/

section Stripping

variable {p : Char → Bool} {before cs after : List Char}

theorem dropLeading_eq_self (h : ∀ c, cs.head? = some c → p c = false) : dropLeading p cs = cs := by
  cases cs with
  | nil => rfl
  | cons c cs => rw [dropLeading, List.dropWhile_cons, h c rfl, if_neg Bool.false_ne_true]

/-- Stripping removes what stands around a text that does not begin or end with a stripped
character. -/
theorem strip_padded (hbefore : ∀ c ∈ before, p c = true) (hafter : ∀ c ∈ after, p c = true)
    (hfirst : ∀ c, cs.head? = some c → p c = false)
    (hlast : ∀ c, cs.getLast? = some c → p c = false) :
    strip p (before ++ (cs ++ after)) = cs := by
  have hleading : dropLeading p (before ++ (cs ++ after)) = cs ++ after ∨ cs = [] := by
    cases cs with
    | nil => exact .inr rfl
    | cons c cs =>
      rw [dropLeading, List.dropWhile_append_of_pos hbefore]
      exact .inl (dropLeading_eq_self fun d hd ↦ hfirst d hd)
  rcases hleading with hleading | rfl
  · rw [strip, hleading, dropTrailing, List.reverse_append,
      List.dropWhile_append_of_pos fun c hc ↦ hafter c (List.mem_reverse.mp hc), ← dropLeading,
      dropLeading_eq_self fun c hc ↦ hlast c (List.head?_reverse ▸ hc), List.reverse_reverse]
  · -- Nothing is left of what stands around an empty text.
    have haround : ∀ c ∈ before ++ after, p c = true := fun c hc ↦
      (List.mem_append.mp hc).elim (hbefore c) (hafter c)
    rw [List.nil_append, strip, dropLeading, ← List.append_nil (before ++ after),
      List.dropWhile_append_of_pos haround]
    rfl

theorem strip_eq_self (hfirst : ∀ c, cs.head? = some c → p c = false)
    (hlast : ∀ c, cs.getLast? = some c → p c = false) : strip p cs = cs := by
  have hpadded : strip p ([] ++ (cs ++ [])) = cs := strip_padded nofun nofun hfirst hlast
  rwa [List.nil_append, List.append_nil] at hpadded

end Stripping

end RowAccess.Text

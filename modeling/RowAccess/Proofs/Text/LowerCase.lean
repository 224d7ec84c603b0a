import Mathlib.Data.List.Forall2
import RowAccess.Text.LowerCase
import RowAccess.Text.Split

/-!
# The lower case of parts of a text

Only a capital sigma has a lower case that depends on what stands around it: the final form at the
end of a word, and the other form elsewhere. So a part of a text is lower-cased as it is on its own,
unless it has a sigma that ends a word on its own and not in the text, or the other way round. This
happens exactly at its ends: where the part ends in a word that goes on in the text, or begins in
the middle of one (`lowerBetween_eq_lower_iff_of_behind`, `lowerBetween_eq_lower_iff_of_before`).

Whether the lower case of a text begins or ends with the lower case of a part is then a matter of
lengths. Whether it contains it is not, since it might stand elsewhere. There the two forms of sigma
are counted: one more or one less of them leaves no place for the lower case of the part.
-/

namespace RowAccess.Text

/-! ## Characters in their context -/

/-- Whether a sigma between what stands before it, in reverse, and behind it ends a word. -/
def endsWord (before behind : List Char) : Bool := startsCased before && !startsCased behind

/-- The lower case of a character between what stands before it, in reverse, and behind it. -/
def lowerAt (before : List Char) (c : Char) (behind : List Char) : List Char :=
  if c.toNat == 0x3A3 then [Char.ofNat (if endsWord before behind then 0x3C2 else 0x3C3)]
  else lowerChar c

/-- The lower case of a part of a text between what stands before it, in reverse, and behind it. -/
def lowerBetween (before : List Char) : (part behind : List Char) → List Char
  | [], _ => []
  | c :: cs, behind => lowerAt before c (cs ++ behind) ++ lowerBetween (c :: before) cs behind

theorem toNat_eq_sigma_iff {c : Char} : (c.toNat == 0x3A3) = true ↔ c = 'Σ' := by
  rw [beq_iff_eq, ← Char.toNat_inj]
  rfl

theorem lowerAt_sigma (before behind : List Char) :
    lowerAt before 'Σ' behind = [if endsWord before behind then 'ς' else 'σ'] := by
  rw [lowerAt, if_pos (toNat_eq_sigma_iff.mpr rfl)]
  cases endsWord before behind <;> rfl

theorem lowerAt_of_ne {c : Char} (h : c ≠ 'Σ') (before behind : List Char) :
    lowerAt before c behind = lowerChar c := by
  rw [lowerAt, if_neg (mt toNat_eq_sigma_iff.mp h)]

theorem lowerAfter_append (before part behind : List Char) :
    lowerAfter before (part ++ behind)
      = lowerBetween before part behind ++ lowerAfter (part.reverse ++ before) behind := by
  induction part generalizing before with
  | nil => rfl
  | cons c cs ih =>
    have hstep : lowerAfter before (c :: cs ++ behind)
        = lowerAt before c (cs ++ behind) ++ lowerAfter (c :: before) (cs ++ behind) := rfl
    rw [hstep, ih, lowerBetween, List.reverse_cons, List.append_assoc, List.append_assoc,
      List.singleton_append]

theorem lowerAfter_eq_lowerBetween (before part : List Char) :
    lowerAfter before part = lowerBetween before part [] := by
  have h := lowerAfter_append before part []
  rw [List.append_nil] at h
  exact h.trans (List.append_nil _)

theorem lower_eq_lowerBetween (part : List Char) : lower part = lowerBetween [] part [] :=
  lowerAfter_eq_lowerBetween [] part

theorem lower_append_append (before part behind : List Char) :
    lower (before ++ part ++ behind)
      = lowerBetween [] before (part ++ behind) ++ lowerBetween before.reverse part behind
        ++ lowerBetween (part.reverse ++ before.reverse) behind [] := by
  rw [lower, List.append_assoc, lowerAfter_append, lowerAfter_append, List.append_nil,
    lowerAfter_eq_lowerBetween, List.append_assoc]

/-! ## Two contexts -/

/-- How long the lower case of a part is does not depend on its context. -/
theorem length_lowerBetween (before before' part behind behind' : List Char) :
    (lowerBetween before part behind).length = (lowerBetween before' part behind').length := by
  induction part generalizing before before' with
  | nil => rfl
  | cons c cs ih =>
    rw [lowerBetween, lowerBetween, List.length_append, List.length_append,
      ih (c :: before) (c :: before')]
    by_cases hc : c = 'Σ'
    · rw [hc, lowerAt_sigma, lowerAt_sigma]
      rfl
    · rw [lowerAt_of_ne hc, lowerAt_of_ne hc]

theorem forall_places_cons {P : List Char → Char → List Char → Prop} {c : Char}
    {cs : List Char} :
    (∀ as d bs, c :: cs = as ++ d :: bs → P as d bs) ↔
      P [] c cs ∧ ∀ as d bs, cs = as ++ d :: bs → P (c :: as) d bs := by
  constructor
  · intro h
    exact ⟨h [] c cs rfl, fun as d bs hcs ↦ h (c :: as) d bs (by rw [hcs, List.cons_append])⟩
  · rintro ⟨hfirst, hlater⟩ as d bs hsplit
    cases as with
    | nil =>
      obtain ⟨rfl, rfl⟩ := List.cons.inj hsplit
      exact hfirst
    | cons a as =>
      obtain ⟨rfl, hcs⟩ := List.cons.inj hsplit
      exact hlater as d bs hcs

/-- A part has the same lower case in two contexts exactly if each of its sigmas ends a word in both
of them or in none. -/
theorem lowerBetween_eq_iff {before before' part behind behind' : List Char} :
    lowerBetween before part behind = lowerBetween before' part behind' ↔
      ∀ as c bs, part = as ++ c :: bs → c = 'Σ' →
        endsWord (as.reverse ++ before) (bs ++ behind)
          = endsWord (as.reverse ++ before') (bs ++ behind') := by
  induction part generalizing before before' with
  | nil => simp [lowerBetween]
  | cons c cs ih =>
    rw [forall_places_cons, lowerBetween, lowerBetween]
    have hhead : lowerAt before c (cs ++ behind) = lowerAt before' c (cs ++ behind') ↔
        (c = 'Σ' → endsWord before (cs ++ behind) = endsWord before' (cs ++ behind')) := by
      by_cases hc : c = 'Σ'
      · rw [hc, lowerAt_sigma, lowerAt_sigma]
        cases endsWord before (cs ++ behind) <;> cases endsWord before' (cs ++ behind') <;> decide
      · rw [lowerAt_of_ne hc, lowerAt_of_ne hc]
        exact iff_of_true rfl fun e ↦ absurd e hc
    have htail := @ih (c :: before) (c :: before')
    have hreverse : ∀ as before : List Char,
        (c :: as).reverse ++ before = as.reverse ++ c :: before := by simp
    simp only [hreverse]
    rw [← htail]
    constructor
    · intro h
      have hlength := length_lowerBetween (c :: before) (c :: before') cs behind behind'
      obtain ⟨hfirst, hrest⟩ := List.append_inj' h hlength
      exact ⟨hhead.mp hfirst, hrest⟩
    · rintro ⟨hfirst, hrest⟩
      rw [hrest, hhead.mpr hfirst]

theorem startsCased_append (cs rest : List Char) :
    startsCased (cs ++ rest)
      = if cs.all isCaseIgnorable = true then startsCased rest else startsCased cs := by
  induction cs with
  | nil => rfl
  | cons c cs ih =>
    by_cases hc : isCaseIgnorable c = true
    · simp only [startsCased, List.cons_append, List.dropWhile_cons, hc, List.all_cons,
        Bool.true_and, if_true] at ih ⊢
      exact ih
    · simp only [startsCased, List.cons_append, List.dropWhile_cons, hc, List.all_cons,
        Bool.false_and, if_false, Bool.false_eq_true]

theorem startsCased_eq_false {cs : List Char} (h : cs.all isCaseIgnorable = true) :
    startsCased cs = false := by
  have happend := startsCased_append cs []
  rw [List.append_nil, if_pos h] at happend
  exact happend

/-! ## Ends of a part -/

/-- A text ends in a sigma that ends a word, apart from characters which do not decide that. -/
def EndsInSigma (cs : List Char) : Prop :=
  ∃ as bs, cs = as ++ 'Σ' :: bs ∧ startsCased as.reverse = true ∧ bs.all isCaseIgnorable = true

/-- A text begins with a sigma that would end a word if one came before it, apart from characters
which do not decide that. -/
def BeginsInSigma (cs : List Char) : Prop :=
  ∃ as bs, cs = as ++ 'Σ' :: bs ∧ as.all isCaseIgnorable = true ∧ startsCased bs = false

/-- Behind a part, a cased character changes its lower case exactly if the part ends in a sigma. -/
theorem lowerBetween_eq_lower_iff_of_behind {part behind : List Char} :
    lowerBetween [] part behind = lower part ↔
      ¬(EndsInSigma part ∧ startsCased behind = true) := by
  rw [lower_eq_lowerBetween, lowerBetween_eq_iff, EndsInSigma]
  constructor
  · rintro h ⟨⟨as, bs, hpart, hbefore, hignorable⟩, hbehind⟩
    have hsame := h as 'Σ' bs hpart rfl
    rw [List.append_nil, List.append_nil, endsWord, endsWord, hbefore, startsCased_append,
      if_pos hignorable, hbehind, startsCased_eq_false hignorable] at hsame
    exact absurd hsame (by decide)
  · rintro h as _ bs hpart rfl
    rw [List.append_nil, List.append_nil, endsWord, endsWord, startsCased_append]
    split
    · next hignorable =>
      rw [startsCased_eq_false hignorable]
      cases hbefore : startsCased as.reverse with
      | false => rfl
      | true =>
        cases hbehind : startsCased behind with
        | false => rfl
        | true => exact absurd ⟨⟨as, bs, hpart, hbefore, hignorable⟩, hbehind⟩ h
    · rfl

/-- Before a part, a cased character changes its lower case exactly if the part begins in a
sigma. -/
theorem lowerBetween_eq_lower_iff_of_before {before part : List Char} :
    lowerBetween before part [] = lower part ↔
      ¬(BeginsInSigma part ∧ startsCased before = true) := by
  rw [lower_eq_lowerBetween, lowerBetween_eq_iff, BeginsInSigma]
  have hall : ∀ as : List Char, as.reverse.all isCaseIgnorable = as.all isCaseIgnorable :=
    fun as ↦ List.all_reverse
  constructor
  · rintro h ⟨⟨as, bs, hpart, hignorable, hbehind⟩, hbefore⟩
    have hsame := h as 'Σ' bs hpart rfl
    rw [List.append_nil, List.append_nil, endsWord, endsWord, hbehind, startsCased_append,
      hall, if_pos hignorable, hbefore, startsCased_eq_false ((hall as).trans hignorable)] at hsame
    exact absurd hsame (by decide)
  · rintro h as _ bs hpart rfl
    rw [List.append_nil, List.append_nil, endsWord, endsWord, startsCased_append, hall]
    split
    · next hignorable =>
      rw [startsCased_eq_false ((hall as).trans hignorable)]
      cases hbehind : startsCased bs with
      | true => rw [Bool.not_true, Bool.and_false, Bool.and_false]
      | false =>
        cases hbefore : startsCased before with
        | false => rfl
        | true => exact absurd ⟨⟨as, bs, hpart, hignorable, hbehind⟩, hbefore⟩ h
    · rfl

/-- A part that neither ends nor begins in a sigma is lower-cased in every text as on its own. -/
theorem lowerBetween_eq_lower {part : List Char} (hends : ¬EndsInSigma part)
    (hbegins : ¬BeginsInSigma part) (before behind : List Char) :
    lowerBetween before part behind = lower part := by
  rw [lower_eq_lowerBetween, lowerBetween_eq_iff]
  rintro as _ bs rfl rfl
  have hall : as.reverse.all isCaseIgnorable = as.all isCaseIgnorable := List.all_reverse
  rw [List.append_nil, List.append_nil, endsWord, endsWord, startsCased_append, startsCased_append,
    hall]
  by_cases hbefore : as.all isCaseIgnorable = true
  · -- Nothing before the sigma decides, so there is a cased character behind it.
    have hbehind : startsCased bs = true := by
      cases hnone : startsCased bs with
      | true => rfl
      | false => exact absurd ⟨as, bs, rfl, hbefore, hnone⟩ hbegins
    have hnot : ¬bs.all isCaseIgnorable = true := fun h ↦
      absurd ((startsCased_eq_false h).symm.trans hbehind) (by decide)
    rw [if_neg hnot, hbehind, Bool.not_true, Bool.and_false, Bool.and_false]
  · rw [if_neg hbefore]
    by_cases hbehind : bs.all isCaseIgnorable = true
    · have hnone : startsCased as.reverse = false := by
        exact Bool.eq_false_iff.mpr fun hcased ↦ hends ⟨as, bs, rfl, hcased, hbehind⟩
      rw [hnone, Bool.false_and, Bool.false_and]
    · rw [if_neg hbehind]

/-- The lower case of a text begins with that of its beginning, unless this ends in a sigma and the
text goes on with a cased character. -/
theorem lower_isPrefix_iff {part rest : List Char} :
    lower part <+: lower (part ++ rest) ↔ ¬(EndsInSigma part ∧ startsCased rest = true) := by
  have htext := lowerAfter_append [] part rest
  rw [← lower] at htext
  rw [← lowerBetween_eq_lower_iff_of_behind, htext]
  have hlength : (lower part).length = (lowerBetween [] part rest).length := by
    rw [lower_eq_lowerBetween]
    exact length_lowerBetween _ _ _ _ _
  constructor
  · intro h
    have hstart := List.prefix_of_prefix_length_le h (List.prefix_append _ _) (Nat.le_of_eq hlength)
    exact (hstart.eq_of_length hlength).symm
  · intro h
    rw [h]
    exact List.prefix_append _ _

/-- The lower case of a text ends with that of its ending, unless this begins in a sigma and a cased
character stands before it. -/
theorem lower_isSuffix_iff {part rest : List Char} :
    lower part <:+ lower (rest ++ part) ↔
      ¬(BeginsInSigma part ∧ startsCased rest.reverse = true) := by
  have htext := lowerAfter_append [] rest part
  rw [← lower, List.append_nil, lowerAfter_eq_lowerBetween] at htext
  rw [← lowerBetween_eq_lower_iff_of_before, htext]
  have hlength : (lower part).length = (lowerBetween rest.reverse part []).length := by
    rw [lower_eq_lowerBetween]
    exact length_lowerBetween _ _ _ _ _
  constructor
  · intro h
    have hend := List.suffix_of_suffix_length_le h (List.suffix_append _ _) (Nat.le_of_eq hlength)
    exact (hend.eq_of_length hlength).symm
  · intro h
    rw [h]
    exact List.suffix_append _ _

/-! ## Parts somewhere in a text -/

/-- Of two lists that differ only where the second one has a certain element, the second one has it
more often, unless they are equal. -/
theorem count_le_of_forall₂ {x : Char} {xs ys : List Char}
    (h : List.Forall₂ (fun p q ↦ p = q ∨ q = x) xs ys) :
    xs.count x ≤ ys.count x ∧ (ys.count x ≤ xs.count x → xs = ys) := by
  induction h with
  | nil => exact ⟨Nat.le_refl _, fun _ ↦ rfl⟩
  | @cons p q xs ys hpq _ ih =>
    obtain ⟨hle, heq⟩ := ih
    rw [List.count_cons, List.count_cons]
    rcases hpq with rfl | rfl
    · exact ⟨Nat.add_le_add_right hle _,
        fun h ↦ congrArg (p :: ·) (heq (Nat.le_of_add_le_add_right h))⟩
    · by_cases hp : p = q
      · rw [hp]
        exact ⟨Nat.add_le_add_right hle _,
          fun h ↦ congrArg (q :: ·) (heq (Nat.le_of_add_le_add_right h))⟩
      · simp only [beq_iff_eq, hp, if_true, if_false]
        exact ⟨by omega, fun h ↦ by omega⟩

/-- The letter of a sigma that ends a word, or of one that does not. -/
def smallSigma (ends : Bool) : Char := if ends then 'ς' else 'σ'

/-- In two contexts of a part every sigma is lower-cased alike, or to a certain form in the second
one. -/
def DiffersTo (ends : Bool) (before before' part behind behind' : List Char) : Prop :=
  ∀ as c bs, part = as ++ c :: bs → c = 'Σ' →
    endsWord (as.reverse ++ before) (bs ++ behind)
        = endsWord (as.reverse ++ before') (bs ++ behind') ∨
      endsWord (as.reverse ++ before') (bs ++ behind') = ends

section DiffersTo

variable {ends : Bool} {before before' part behind behind' : List Char}

theorem DiffersTo.forall₂ (h : DiffersTo ends before before' part behind behind') :
    List.Forall₂ (fun p q ↦ p = q ∨ q = smallSigma ends)
      (lowerBetween before part behind) (lowerBetween before' part behind') := by
  induction part generalizing before before' with
  | nil => exact .nil
  | cons c cs ih =>
    rw [DiffersTo, forall_places_cons] at h
    obtain ⟨hfirst, hlater⟩ := h
    rw [lowerBetween, lowerBetween]
    refine List.rel_append ?_ (ih fun as d bs hcs hd ↦ ?_)
    · by_cases hc : c = 'Σ'
      · rw [hc, lowerAt_sigma, lowerAt_sigma]
        refine .cons ?_ .nil
        have hplace := hfirst hc
        rw [List.reverse_nil, List.nil_append, List.nil_append] at hplace
        rcases hplace with hsame | hends
        · exact .inl (by rw [hsame])
        · exact .inr (by rw [hends, smallSigma])
      · rw [lowerAt_of_ne hc, lowerAt_of_ne hc]
        exact List.forall₂_same.mpr fun p _ ↦ .inl rfl
    · have hplace := hlater as d bs hcs hd
      rwa [List.reverse_cons, List.append_assoc, List.append_assoc] at hplace

/-- If the lower case of a part occurs in that of a text, and no more of the sigmas come from
elsewhere, then it occurs where the part stands. -/
theorem DiffersTo.eq_of_isInfix (h : DiffersTo ends before before' part behind behind')
    {start finish : List Char} (hstart : smallSigma ends ∉ start)
    (hfinish : smallSigma ends ∉ finish)
    (hinside : lowerBetween before' part behind'
      <:+: start ++ lowerBetween before part behind ++ finish) :
    lowerBetween before part behind = lowerBetween before' part behind' := by
  refine (count_le_of_forall₂ h.forall₂).2 ?_
  have hcount := hinside.sublist.count_le (smallSigma ends)
  rwa [List.count_append, List.count_append, List.count_eq_zero.mpr hstart,
    List.count_eq_zero.mpr hfinish, Nat.zero_add, Nat.add_zero] at hcount

end DiffersTo

/-- A sigma that ends a word in a text ends one in a beginning of the text, too. -/
theorem differsTo_of_behind (part behind : List Char) : DiffersTo true [] [] part behind [] := by
  rintro as _ bs rfl rfl
  rw [List.append_nil, List.append_nil, endsWord, endsWord, startsCased_append]
  cases startsCased as.reverse with
  | false => exact .inl rfl
  | true =>
    by_cases hbs : bs.all isCaseIgnorable = true
    · rw [startsCased_eq_false hbs]
      exact .inr rfl
    · rw [if_neg hbs]
      exact .inl rfl

theorem differsTo_of_before (before part : List Char) : DiffersTo false before [] part [] [] := by
  rintro as _ bs rfl rfl
  rw [List.append_nil, List.append_nil, endsWord, endsWord, startsCased_append]
  by_cases has : as.reverse.all isCaseIgnorable = true
  · rw [startsCased_eq_false has]
    exact .inr rfl
  · rw [if_neg has]
    exact .inl rfl

/-- The lower case of a text contains that of every part of it, unless the part ends or begins in a
sigma: then some text contains the part without its lower case. -/
theorem forall_lower_isInfix_iff {part : List Char} :
    (∀ text, part <:+: text → lower part <:+: lower text) ↔
      ¬EndsInSigma part ∧ ¬BeginsInSigma part := by
  have hcased : startsCased ['A'] = true := by decide +kernel
  have hlower : ∀ before behind, lowerBetween before ['A'] behind = ['a'] := by
    intro before behind
    rw [lowerBetween, lowerAt_of_ne (by decide)]
    rfl
  constructor
  · refine fun h ↦ ⟨fun hends ↦ ?_, fun hbegins ↦ ?_⟩
    · -- The part is continued by a letter, and its last sigma does not end a word any more.
      have hinside := h ([] ++ part ++ ['A']) (List.infix_append _ _ _)
      rw [lower_append_append, hlower, lower_eq_lowerBetween] at hinside
      have hsame := (differsTo_of_behind part ['A']).eq_of_isInfix List.not_mem_nil (by decide)
        hinside
      rw [← lower_eq_lowerBetween, lowerBetween_eq_lower_iff_of_behind] at hsame
      exact hsame ⟨hends, hcased⟩
    · -- The part is put behind a letter, and its first sigma ends a word.
      have hinside := h (['A'] ++ part ++ []) (List.infix_append _ _ _)
      rw [lower_append_append, hlower, lower_eq_lowerBetween] at hinside
      have hsame := (differsTo_of_before ['A'] part).eq_of_isInfix (by decide) List.not_mem_nil
        hinside
      rw [← lower_eq_lowerBetween, lowerBetween_eq_lower_iff_of_before] at hsame
      exact hsame ⟨hbegins, hcased⟩
  · rintro ⟨hends, hbegins⟩ _ ⟨before, behind, rfl⟩
    rw [lower_append_append, lowerBetween_eq_lower hends hbegins]
    exact List.infix_append _ _ _

end RowAccess.Text

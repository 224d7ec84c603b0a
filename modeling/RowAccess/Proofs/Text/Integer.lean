import RowAccess.Proofs.Text.Split
import RowAccess.Text.Blank
import RowAccess.Text.Integer

/-!
# Writing and reading integers

The decimal text of an integer is read back as the integer, so different integers have different
texts. It has digits and at most a minus sign, and none of the marks that stand around numbers in
requests. The natural numbers that choose a page are read back in the same way.
-/

namespace RowAccess.Text

theorem isInt64_of_nonneg {n : Int} (hzero : 0 ≤ n) (hmax : n ≤ int64Max) : isInt64 n = true := by
  have hmin : int64Min ≤ n := Int.le_trans (by decide) hzero
  rw [isInt64, Bool.and_eq_true, decide_eq_true_eq, decide_eq_true_eq]
  exact ⟨hmin, hmax⟩

theorem isInt64_of_readInt64? {s : String} {n : Int} (h : readInt64? s = some n) :
    isInt64 n = true := by
  rw [readInt64?, Option.filter_eq_some_iff] at h
  exact h.2

theorem toList_writeInt (n : Int) :
    (writeInt n).toList = match n with
      | .ofNat k => Nat.toDigits 10 k
      | .negSucc k => '-' :: Nat.toDigits 10 (k + 1) := by
  cases n with
  | ofNat k => exact Nat.toList_repr
  | negSucc k =>
    have htext : writeInt (.negSucc k) = "-" ++ (k + 1).repr := rfl
    rw [htext, String.toList_append, Nat.toList_repr]
    rfl

theorem isDigit_of_mem_toDigits {n : Nat} {c : Char} (h : c ∈ Nat.toDigits 10 n) :
    isDigit c = true := by
  have hdigit := Nat.isDigit_of_mem_toDigits (by decide) (by decide) h
  rw [Char.isDigit] at hdigit
  rw [isDigit]
  exact hdigit

theorem writeInt_ne_empty (n : Int) : writeInt n ≠ "" := fun e ↦ by
  have htext := toList_writeInt n
  rw [e] at htext
  cases n with
  | ofNat k => exact Nat.toDigits_ne_nil htext.symm
  | negSucc k => exact List.cons_ne_nil _ _ htext.symm

theorem mem_writeInt {c : Char} {n : Int} (h : c ∈ (writeInt n).toList) :
    c = '-' ∨ isDigit c = true := by
  rw [toList_writeInt] at h
  cases n with
  | ofNat k => exact .inr (isDigit_of_mem_toDigits h)
  | negSucc k => exact (List.mem_cons.mp h).imp_right isDigit_of_mem_toDigits

theorem not_mem_writeInt {c : Char} (hdigit : isDigit c = false) (hminus : c ≠ '-') (n : Int) :
    c ∉ (writeInt n).toList := fun h ↦
  (mem_writeInt h).elim hminus (Bool.eq_false_iff.mp hdigit)

theorem toDigits_injective {a b : Nat} (h : Nat.toDigits 10 a = Nat.toDigits 10 b) : a = b := by
  rw [← Nat.ofDigitChars_ten_toDigits (n := a), h, Nat.ofDigitChars_ten_toDigits]

theorem writeInt_injective {a b : Int} (h : (writeInt a).toList = (writeInt b).toList) :
    a = b := by
  have hminus : ∀ k, '-' ∉ Nat.toDigits 10 k := fun k hk ↦
    absurd (isDigit_of_mem_toDigits hk) (by decide)
  rw [toList_writeInt, toList_writeInt] at h
  cases a with
  | ofNat a =>
    cases b with
    | ofNat b => exact congrArg Int.ofNat (toDigits_injective h)
    | negSucc b =>
      dsimp only at h
      exact absurd (h ▸ List.mem_cons_self) (hminus a)
  | negSucc a =>
    cases b with
    | ofNat b =>
      dsimp only at h
      exact absurd (h ▸ List.mem_cons_self) (hminus b)
    | negSucc b =>
      exact congrArg Int.negSucc (Nat.succ.inj (toDigits_injective (List.cons.inj h).2))

/-- A row of digits is read as the number that they denote, if it fits 64 bits. -/
theorem readInt64?_of_digits {s : String} (hne : s ≠ "")
    (hdigits : ∀ c ∈ s.toList, isDigit c = true)
    (hmax : (digitsValue s.toList : Int) ≤ int64Max) :
    readInt64? s = some (digitsValue s.toList : Int) := by
  have hread : readNat? s.toList = some (digitsValue s.toList) := by
    have hfilled := List.isEmpty_eq_false_iff.mpr (mt String.toList_eq_nil_iff.mp hne)
    rw [readNat?, hfilled, List.all_eq_true.mpr hdigits]
    rfl
  have hsign : ∀ sign, isDigit sign = false → ∀ cs, s.toList ≠ sign :: cs := by
    intro sign hsign cs hcs
    have hdigit := hdigits sign (hcs ▸ List.mem_cons_self)
    exact Bool.false_ne_true (hsign.symm.trans hdigit)
  have hrange := isInt64_of_nonneg (Int.natCast_nonneg _) hmax
  rw [readInt64?]
  split
  · next cs hcs => exact absurd hcs (hsign '-' (by decide) cs)
  · next cs hcs => exact absurd hcs (hsign '+' (by decide) cs)
  · rw [hread, Option.map_some, Option.filter_some]
    exact if_pos hrange

/-! ## Natural numbers in requests -/

theorem readNat?_toDigits (n : Nat) : readNat? (Nat.toDigits 10 n) = some n := by
  have hdigits : (Nat.toDigits 10 n).all isDigit = true :=
    List.all_eq_true.mpr fun _ ↦ isDigit_of_mem_toDigits
  have hvalue : digitsValue (Nat.toDigits 10 n) = n := by
    have hstep : (fun (k : Nat) (c : Char) ↦ k * 10 + digitValue c)
        = fun k c ↦ 10 * k + (c.toNat - '0'.toNat) := by
      funext k c
      rw [Nat.mul_comm, digitValue]
    rw [digitsValue, hstep]
    exact Nat.ofDigitChars_ten_toDigits
  rw [readNat?, hdigits, List.isEmpty_eq_false_iff.mpr Nat.toDigits_ne_nil, hvalue]
  rfl

theorem isBlank_of_isDigit {c : Char} (h : isDigit c = true) : isBlank c = false := by
  rw [isDigit, Bool.and_eq_true, decide_eq_true_eq, decide_eq_true_eq] at h
  have hlow : 48 ≤ c.toNat := h.1
  have hhigh : c.toNat ≤ 57 := h.2
  simp [isBlank]
  omega

theorem readNat64?_trim_repr {n : Nat} (h : n ≤ nat64Max) : readNat64? (trim n.repr) = some n := by
  have hdigits : ∀ c ∈ Nat.toDigits 10 n, isDigit c = true := fun _ ↦ isDigit_of_mem_toDigits
  have htrim : (trim n.repr).toList = Nat.toDigits 10 n := by
    rw [trim, String.toList_ofList, Nat.toList_repr]
    exact strip_eq_self (fun c hc ↦ isBlank_of_isDigit (hdigits c (List.mem_of_head? hc)))
      fun c hc ↦ isBlank_of_isDigit (hdigits c (List.mem_of_getLast? hc))
  have hplus : ∀ cs, Nat.toDigits 10 n ≠ '+' :: cs := fun cs hcs ↦
    absurd (hdigits '+' (hcs ▸ List.mem_cons_self)) (by decide)
  rw [readNat64?, htrim]
  split
  · rename_i cs hcs
    exact absurd hcs (hplus cs)
  · rw [readNat?_toDigits, Option.filter_some, decide_eq_true h, if_pos rfl]

end RowAccess.Text

import RowAccess.Number.Binary64
import RowAccess.Text.Integer

/-!
# Integers as double precision numbers

Rounding an integer to double precision keeps the first 53 binary digits of its magnitude and rounds
the others away (`units_ofInt`). So integers up to `2 ^ 53` are not changed, and of greater ones as
many are taken for one number as digits are rounded away allow: integers of 64 bits with the same
double precision number are `1024` apart at most. Rounding never reverses two integers
(`nearest_mono`), so the order of double precision numbers is wrong about integers in this one way.
-/

namespace RowAccess

/-! ## Rounded quotients -/

theorem twoTo_add (a b : Nat) : twoTo (a + b) = twoTo a * twoTo b := Nat.pow_add 2 a b

theorem twoTo_pos (k : Nat) : 0 < twoTo k := Nat.two_pow_pos k

/-- A quotient is rounded to the nearest whole number. -/
theorem roundDiv_near (n : Nat) {d : Nat} (hd : 0 < d) :
    2 * (roundDiv n d * d) ≤ 2 * n + d ∧ 2 * n ≤ 2 * (roundDiv n d * d) + d := by
  have hn : n / d * d + n % d = n := Nat.div_add_mod' n d
  have hr := Nat.mod_lt n hd
  simp only [roundDiv]
  split
  · next hup =>
    have hhalf : d ≤ 2 * (n % d) := by
      simp only [Bool.or_eq_true, decide_eq_true_eq, Bool.and_eq_true, beq_iff_eq] at hup
      omega
    rw [Nat.add_mul, Nat.one_mul]
    omega
  · next hdown =>
    have hhalf : 2 * (n % d) ≤ d := by
      simp only [Bool.or_eq_true, decide_eq_true_eq] at hdown
      omega
    omega

theorem roundDiv_mul (k : Nat) {d : Nat} (hd : 0 < d) : roundDiv (k * d) d = k := by
  rw [roundDiv, Nat.mul_div_left k hd, Nat.mul_mod_left]
  refine if_neg ?_
  simp only [Nat.mul_zero, Bool.or_eq_true, Bool.and_eq_true, decide_eq_true_eq, beq_iff_eq]
  omega

theorem roundDiv_one (k : Nat) : roundDiv k 1 = k := by
  have hmul := roundDiv_mul k Nat.one_pos
  rwa [Nat.mul_one] at hmul

theorem roundDiv_mul_of_dvd {n d : Nat} (hd : 0 < d) (h : d ∣ n) : roundDiv n d * d = n := by
  obtain ⟨k, rfl⟩ := h
  rw [Nat.mul_comm d k, roundDiv_mul k hd]

theorem roundDiv_mono (d : Nat) {a b : Nat} (h : a ≤ b) : roundDiv a d ≤ roundDiv b d := by
  have hquot : a / d ≤ b / d := Nat.div_le_div_right h
  rcases Nat.lt_or_eq_of_le hquot with hlt | heq
  · have hup : roundDiv a d ≤ a / d + 1 := by
      simp only [roundDiv]
      split <;> omega
    have hdown : b / d ≤ roundDiv b d := by
      simp only [roundDiv]
      split <;> omega
    omega
  · -- Within one quotient the remainder decides, and the greater number has the greater one.
    have hrem : a % d ≤ b % d := by
      have ha := Nat.div_add_mod' a d
      have hb := Nat.div_add_mod' b d
      rw [heq] at ha
      omega
    simp only [roundDiv, heq, Bool.or_eq_true, decide_eq_true_eq, Bool.and_eq_true, beq_iff_eq]
    split <;> split <;> omega

namespace Binary64

/-! ## The double precision number of an integer -/

def unitsOfOne : Nat := twoTo 1074

/-- The number of binary digits of an integer that are rounded away. -/
def excess (n : Nat) : Nat := n.log2 - 52

/-- The natural number nearest to one among those with at most 53 binary digits before zeros. -/
def nearestNat (n : Nat) : Nat := roundDiv n (twoTo (excess n)) * twoTo (excess n)

/-- The integer that the double precision number of an integer is. -/
def nearest (n : Int) : Int := if n < 0 then -nearestNat n.natAbs else nearestNat n.natAbs

/-- Scaling a number to more binary digits than it has makes it that long. -/
theorem twoTo_le_scaleRatio {n : Nat} (hn : n ≠ 0) (k : Nat) :
    (scaleRatio n 1 (k - n.log2)).2 * twoTo k ≤ (scaleRatio n 1 (k - n.log2)).1 := by
  have hlow : twoTo n.log2 ≤ n := Nat.log2_self_le hn
  rw [scaleRatio]
  split
  · have hk : k = n.log2 + ((k : Int) - n.log2).toNat := by omega
    have htwo : twoTo k = twoTo n.log2 * twoTo ((k : Int) - n.log2).toNat := by
      rw [← twoTo_add, ← hk]
    rw [Nat.one_mul, htwo]
    exact Nat.mul_le_mul_right _ hlow
  · have hk : n.log2 = (-((k : Int) - n.log2)).toNat + k := by omega
    rwa [Nat.one_mul, ← twoTo_add, ← hk]

/-- Rounding for any greatest significand. The powers of two are names here, so that a comparison
with one of them is not carried out by counting up to it. -/
def roundedBelow (top half : Nat) (negative : Bool) (num den : Nat) : Binary64 :=
  let guess : Int := (num.log2 : Int) - den.log2 - 53
  let (n, d) := scaleRatio num den (-guess)
  let exponent := max minExponent (if d * top ≤ n then guess + 1 else guess)
  let (n, d) := scaleRatio num den (-exponent)
  let significand := roundDiv n d
  if significand = top then ⟨negative, half, exponent + 1⟩
  else ⟨negative, significand, exponent⟩

theorem rounded_eq_roundedBelow (negative : Bool) {num : Nat} (hnum : num ≠ 0) (den : Nat) :
    rounded negative num den = roundedBelow (twoTo 53) (twoTo 52) negative num den := by
  rw [rounded, if_neg hnum, roundedBelow]

/-- The steps of rounding, each with its result by name. -/
theorem roundedBelow_of_steps (top half : Nat) (negative : Bool)
    {num den longNum longDen shortNum shortDen : Nat} {guess exponent : Int}
    (hguess : (num.log2 : Int) - den.log2 - 53 = guess)
    (hlong : scaleRatio num den (-guess) = (longNum, longDen))
    (hexponent : max minExponent (if longDen * top ≤ longNum then guess + 1 else guess)
      = exponent)
    (hshort : scaleRatio num den (-exponent) = (shortNum, shortDen)) :
    roundedBelow top half negative num den =
      if roundDiv shortNum shortDen = top then ⟨negative, half, exponent + 1⟩
      else ⟨negative, roundDiv shortNum shortDen, exponent⟩ := by
  rw [roundedBelow, hguess]
  dsimp only
  rw [hlong]
  dsimp only
  rw [hexponent, hshort]

/-- An integer is scaled to 53 binary digits, which are its significand unless they are rounded up
to one digit more. -/
theorem rounded_one (negative : Bool) {n numer denom : Nat} (hn : n ≠ 0)
    (hscaled : scaleRatio n 1 (52 - n.log2) = (numer, denom)) :
    rounded negative n 1 =
      if roundDiv numer denom = twoTo 53 then ⟨negative, twoTo 52, (n.log2 : Int) - 52 + 1⟩
      else ⟨negative, roundDiv numer denom, (n.log2 : Int) - 52⟩ := by
  have hone : (1 : Nat).log2 = 0 := by decide
  have hguess : (n.log2 : Int) - (1 : Nat).log2 - 53 = n.log2 - 53 := by
    rw [hone]
    omega
  have hlong : -((n.log2 : Int) - 53) = (53 : Nat) - n.log2 := by omega
  have hshort : -((n.log2 : Int) - 52) = 52 - n.log2 := by omega
  have hexponent : max minExponent ((n.log2 : Int) - 53 + 1) = n.log2 - 52 := by
    rw [minExponent]
    omega
  obtain ⟨⟨longNum, longDen⟩, hlongRatio⟩ :
      ∃ ratio, scaleRatio n 1 (-((n.log2 : Int) - 53)) = ratio := ⟨_, rfl⟩
  have hfits : longDen * twoTo 53 ≤ longNum := by
    have hscaledUp := twoTo_le_scaleRatio hn 53
    rwa [← hlong, hlongRatio] at hscaledUp
  rw [rounded_eq_roundedBelow negative hn]
  exact roundedBelow_of_steps _ _ negative hguess hlongRatio (by rw [if_pos hfits, hexponent])
    (hshort ▸ hscaled)

/-- A significand of one digit too many is halved, and the value stays. -/
theorem units_carry (negative : Bool) (significand : Nat) {exponent : Int}
    (h : minExponent ≤ exponent) :
    units (if significand = twoTo 53 then ⟨negative, twoTo 52, exponent + 1⟩
      else ⟨negative, significand, exponent⟩) = units ⟨negative, significand, exponent⟩ := by
  split
  · next htop =>
    have hshift : (exponent + 1 - minExponent).toNat = 1 + (exponent - minExponent).toNat := by
      omega
    have hvalue : twoTo 52 * twoTo (exponent + 1 - minExponent).toNat
        = significand * twoTo (exponent - minExponent).toNat := by
      rw [htop, hshift, ← twoTo_add, ← twoTo_add, ← Nat.add_assoc]
    simp only [units, hvalue]
  · rfl

theorem signed_mul (negative : Bool) (a b : Nat) :
    (if negative then -((a * b : Nat) : Int) else (a * b : Nat))
      = (if negative then -(a : Int) else a) * b := by
  rw [Int.natCast_mul]
  cases negative with
  | false => rfl
  | true => exact (Int.neg_mul a b).symm

/-- The significand that an integer is scaled and rounded to, in units of its last place, is the
nearest integer. -/
theorem roundDiv_scaleRatio {n numer denom : Nat}
    (hscaled : scaleRatio n 1 (52 - n.log2) = (numer, denom)) :
    roundDiv numer denom * twoTo ((n.log2 : Int) - 52 - minExponent).toNat
      = nearestNat n * unitsOfOne := by
  rw [nearestNat, excess, unitsOfOne, minExponent]
  rw [scaleRatio] at hscaled
  split at hscaled
  · obtain ⟨rfl, rfl⟩ := Prod.mk.inj hscaled
    have hzero : n.log2 - 52 = 0 := by omega
    have hsum : ((52 : Int) - n.log2).toNat + ((n.log2 : Int) - 52 - -1074).toNat = 1074 := by
      omega
    have htwo : twoTo 0 = 1 := rfl
    rw [hzero, htwo, roundDiv_one, roundDiv_one, Nat.mul_one, Nat.mul_assoc, ← twoTo_add, hsum]
  · obtain ⟨rfl, rfl⟩ := Prod.mk.inj hscaled
    have hpower : (-((52 : Int) - n.log2)).toNat = n.log2 - 52 := by omega
    have hsum : ((n.log2 : Int) - 52 - -1074).toNat = n.log2 - 52 + 1074 := by omega
    rw [Nat.one_mul, hpower, hsum, twoTo_add, Nat.mul_assoc]

theorem units_rounded_one (negative : Bool) (n : Nat) :
    (rounded negative n 1).units
      = (if negative then -(nearestNat n : Int) else nearestNat n) * unitsOfOne := by
  rw [← signed_mul]
  by_cases hn : n = 0
  · subst hn
    have hzero : nearestNat 0 * unitsOfOne = 0 * twoTo 0 := by
      rw [Nat.zero_mul, nearestNat, roundDiv, Nat.zero_div, Nat.zero_mod]
      simp
    rw [rounded, if_pos rfl, hzero]
    rfl
  · obtain ⟨⟨numer, denom⟩, hscaled⟩ : ∃ ratio, scaleRatio n 1 (52 - n.log2) = ratio := ⟨_, rfl⟩
    rw [rounded_one negative hn hscaled, units_carry _ _ (by rw [minExponent]; omega), units]
    dsimp only
    rw [roundDiv_scaleRatio hscaled]

/-- The double precision number of an integer is the integer nearest to it that has few enough
binary digits. -/
theorem units_ofInt (n : Int) : (ofInt n).units = nearest n * unitsOfOne := by
  rw [ofInt, units_rounded_one, nearest]
  simp only [decide_eq_true_eq]

/-! ## How near it is -/

theorem nearestNat_of_dvd {n : Nat} (h : twoTo (excess n) ∣ n) : nearestNat n = n :=
  roundDiv_mul_of_dvd (twoTo_pos _) h

theorem nearestNat_twoTo (k : Nat) : nearestNat (twoTo k) = twoTo k := by
  have hlog : (twoTo k).log2 = k := Nat.log2_two_pow
  refine nearestNat_of_dvd ?_
  rw [excess, hlog]
  exact Nat.pow_dvd_pow 2 (Nat.sub_le k 52)

theorem excess_le {n k : Nat} (h : n < twoTo (k + 53)) : excess n ≤ k := by
  rw [excess]
  by_cases hn : n = 0
  · rw [hn, Nat.log2_zero]
    omega
  · have hlog : n.log2 < k + 53 := (Nat.log2_lt hn).mpr h
    omega

theorem nearestNat_of_le {n : Nat} (h : n ≤ twoTo 53) : nearestNat n = n := by
  rcases Nat.lt_or_eq_of_le h with hlt | heq
  · have hnone : excess n = 0 := Nat.le_zero.mp (excess_le (Nat.zero_add 53 ▸ hlt))
    refine nearestNat_of_dvd ?_
    rw [hnone]
    exact Nat.one_dvd n
  · rw [heq, nearestNat_twoTo]

/-- An integer of at most `k` binary digits more is changed by half of `2 ^ k` at most. -/
theorem nearestNat_near {n k : Nat} (h : n < twoTo (k + 53)) :
    2 * nearestNat n ≤ 2 * n + twoTo k ∧ 2 * n ≤ 2 * nearestNat n + twoTo k := by
  have hstep : twoTo (excess n) ≤ twoTo k := Nat.pow_le_pow_right Nat.two_pos (excess_le h)
  have hnear := roundDiv_near n (twoTo_pos (excess n))
  rw [nearestNat]
  omega

/-- Rounding does not leave the powers of two around an integer. -/
theorem nearestNat_bounds (n : Nat) :
    (n ≠ 0 → twoTo n.log2 ≤ nearestNat n) ∧ nearestNat n ≤ twoTo (n.log2 + 1) := by
  have hpower : ∀ k, excess n ≤ k →
      twoTo k = twoTo (k - excess n) * twoTo (excess n) := by
    intro k hk
    rw [← twoTo_add, Nat.sub_add_cancel hk]
  have hexcess : excess n ≤ n.log2 := Nat.sub_le _ _
  constructor
  · intro hn
    have hlow : twoTo n.log2 ≤ n := Nat.log2_self_le hn
    rw [hpower _ hexcess] at hlow ⊢
    refine Nat.mul_le_mul_right _ ?_
    have hmono := roundDiv_mono (twoTo (excess n)) hlow
    rwa [roundDiv_mul _ (twoTo_pos _)] at hmono
  · have hhigh : n ≤ twoTo (n.log2 + 1) := Nat.le_of_lt Nat.lt_log2_self
    rw [hpower _ (Nat.le_succ_of_le hexcess)] at hhigh ⊢
    refine Nat.mul_le_mul_right _ ?_
    have hmono := roundDiv_mono (twoTo (excess n)) hhigh
    rwa [roundDiv_mul _ (twoTo_pos _)] at hmono

theorem nearestNat_mono {a b : Nat} (h : a ≤ b) : nearestNat a ≤ nearestNat b := by
  by_cases hzero : b = 0
  · obtain rfl : a = b := by omega
    exact Nat.le_refl _
  · have hlog : a.log2 ≤ b.log2 := by
      by_cases ha : a = 0
      · rw [ha, Nat.log2_zero]
        exact Nat.zero_le _
      · exact (Nat.le_log2 hzero).mpr (Nat.le_trans (Nat.log2_self_le ha) h)
    rcases Nat.lt_or_eq_of_le hlog with hlt | heq
    · calc nearestNat a ≤ twoTo (a.log2 + 1) := (nearestNat_bounds a).2
        _ ≤ twoTo b.log2 := Nat.pow_le_pow_right Nat.two_pos hlt
        _ ≤ nearestNat b := (nearestNat_bounds b).1 hzero
    · rw [nearestNat, nearestNat, excess, excess, heq]
      exact Nat.mul_le_mul_right _ (roundDiv_mono _ h)

/-! ## The order of double precision numbers of integers -/

/-- Rounding does not reverse the order of integers. -/
theorem nearest_mono {a b : Int} (h : a ≤ b) : nearest a ≤ nearest b := by
  rw [nearest, nearest]
  by_cases ha : a < 0 <;> by_cases hb : b < 0
  · have hmono : nearestNat b.natAbs ≤ nearestNat a.natAbs := nearestNat_mono (by omega)
    rw [if_pos ha, if_pos hb]
    omega
  · rw [if_pos ha, if_neg hb]
    omega
  · omega
  · have hmono : nearestNat a.natAbs ≤ nearestNat b.natAbs := nearestNat_mono (by omega)
    rw [if_neg ha, if_neg hb]
    omega

theorem nearest_of_natAbs_le {n : Int} (h : n.natAbs ≤ twoTo 53) : nearest n = n := by
  rw [nearest, nearestNat_of_le h]
  split <;> omega

/-- An integer of 64 bits is at most half a spacing of 1024 away from its double precision number.
-/
theorem nearest_near {n : Int} (h : Text.isInt64 n = true) :
    nearest n ≤ n + 512 ∧ n ≤ nearest n + 512 := by
  rw [Text.isInt64, Bool.and_eq_true, decide_eq_true_eq, decide_eq_true_eq] at h
  have hrange : -(twoTo 63 : Int) ≤ n ∧ n < twoTo 63 := by
    have hpower : (twoTo 63 : Int) = 9223372036854775808 := rfl
    rw [Text.int64Min, Text.int64Max] at h
    omega
  by_cases hleast : n.natAbs = twoTo 63
  · have hexact : nearest n = n := by
      rw [nearest, hleast, nearestNat_twoTo]
      split <;> omega
    omega
  · have hnear := nearestNat_near (n := n.natAbs) (k := 10) (by
      show n.natAbs < twoTo 63
      omega)
    have hstep : twoTo 10 = 1024 := rfl
    rw [nearest]
    split <;> omega

theorem unitsOfOne_pos : (0 : Int) < unitsOfOne := Int.natCast_pos.mpr (twoTo_pos 1074)

theorem order_ofInt (a b : Int) : (ofInt a).order (ofInt b) = compare (nearest a) (nearest b) := by
  have hcompare : ∀ {u : Int}, 0 < u → ∀ x y : Int, compare (x * u) (y * u) = compare x y := by
    intro u hu x y
    simp only [compare, compareOfLessAndEq, Int.mul_lt_mul_right hu,
      Int.mul_eq_mul_right_iff (Int.ne_of_gt hu)]
  rw [order, units_ofInt, units_ofInt, hcompare unitsOfOne_pos]

theorem same_ofInt (a b : Int) : (ofInt a).same (ofInt b) = true ↔ nearest a = nearest b := by
  rw [same, beq_iff_eq, units_ofInt, units_ofInt,
    Int.mul_eq_mul_right_iff (Int.ne_of_gt unitsOfOne_pos)]

theorem order_ofInt_of_ne {a b : Int} (h : nearest a ≠ nearest b) :
    (ofInt a).order (ofInt b) = compare a b := by
  rw [order_ofInt]
  rcases Int.lt_trichotomy a b with hlt | heq | hgt
  · have hmono := nearest_mono (Int.le_of_lt hlt)
    rw [Int.compare_eq_lt.mpr hlt, Int.compare_eq_lt]
    omega
  · exact absurd (congrArg nearest heq) h
  · have hmono := nearest_mono (Int.le_of_lt hgt)
    rw [Int.compare_eq_gt.mpr hgt, Int.compare_eq_gt]
    omega

/-- Double precision numbers are wrong about the order of integers only by making different ones
equal. -/
theorem order_ofInt_eq_compare_iff (a b : Int) :
    (ofInt a).order (ofInt b) = compare a b ↔ a = b ∨ nearest a ≠ nearest b := by
  constructor
  · intro h
    by_cases hnearest : nearest a = nearest b
    · rw [order_ofInt, hnearest, Int.compare_eq_eq.mpr rfl] at h
      exact .inl (Int.compare_eq_eq.mp h.symm)
    · exact .inr hnearest
  · rintro (rfl | hne)
    · rw [order_ofInt, Int.compare_eq_eq.mpr rfl, Int.compare_eq_eq.mpr rfl]
    · exact order_ofInt_of_ne hne

end Binary64

end RowAccess

import SqlText.Number.Numeral
import SqlText.Proofs.FixedPoint

/-!
# Numbers in range

A decimal is rounded to a finite binary number exactly when it is less than a bound. The bound
lies half way between the largest finite number, `(2 ^ 53 - 1) * 2 ^ 971`, and the next power of
two; the bound itself is rounded to the even neighbour, which is out of range.
-/

namespace SqlText.Number

/-- The least magnitude that is rounded out of range. -/
def overflow : ℚ := (2 ^ 54 - 1) * 2 ^ 970

/-- A quotient is rounded below an even number when it is less than the half before it. -/
theorem divToEven_lt_iff {num den m : ℕ} (hden : 0 < den) (hm : m % 2 = 0) :
    divToEven num den < m ↔ 2 * num < (2 * m - 1) * den := by
  have hnum : num = den * (num / den) + num % den := (Nat.div_add_mod num den).symm
  have hrest := Nat.mod_lt num hden
  unfold divToEven
  generalize num / den = q at hnum ⊢
  generalize num % den = r at hnum hrest ⊢
  subst hnum
  dsimp only
  rcases Nat.lt_trichotomy (q + 1) m with hless | heq | hmore
  · -- Even rounded up the quotient stays below.
    have hmul : (q + 1) * den ≤ (m - 1) * den := Nat.mul_le_mul_right den (by omega)
    have hleft : (if 2 * r < den then q else if den < 2 * r then q + 1 else q + q % 2) < m := by
      split
      · omega
      · split <;> omega
    have hright : 2 * (den * q + r) < (2 * m - 1) * den := by
      have hm1 : 2 * m - 1 = (m - 1) + (m - 1) + 1 := by omega
      rw [hm1, Nat.add_mul, Nat.add_mul]
      rw [Nat.add_mul, Nat.one_mul, Nat.mul_comm q den] at hmul
      omega
    exact iff_of_true hleft hright
  · -- The quotient is odd, so a half is rounded up to the even number.
    have hm1 : 2 * m - 1 = q + q + 1 := by omega
    rw [hm1, Nat.add_mul, Nat.add_mul, Nat.one_mul, Nat.mul_comm q den]
    split
    · omega
    · split <;> omega
  · have hmul : m * den ≤ q * den := Nat.mul_le_mul_right den (by omega)
    have hleft : ¬(if 2 * r < den then q else if den < 2 * r then q + 1 else q + q % 2) < m := by
      split
      · omega
      · split <;> omega
    have hright : ¬2 * (den * q + r) < (2 * m - 1) * den := by
      have hle : (2 * m - 1) * den ≤ 2 * (m * den) := by
        rw [← Nat.mul_assoc]
        exact Nat.mul_le_mul_right den (Nat.sub_le _ _)
      rw [Nat.mul_comm q den] at hmul
      omega
    exact iff_of_false hleft hright

/-- The rank of a rounded quotient, given in units, lies in the first `k + 2` binades exactly
when the quotient is less than the half before their end. -/
theorem rank_lt_iff {n den : ℕ} (hden : 0 < den) (k : ℕ) :
    divToEven n (den * 2 ^ ((n / den).log2 - 52)) + ((n / den).log2 - 52) * 2 ^ 52 <
        (k + 2) * 2 ^ 52 ↔
      2 * n < (2 ^ 54 - 1) * (den * 2 ^ k) := by
  have hupper : n / den < 2 ^ ((n / den).log2 + 1) := Nat.lt_log2_self
  have hlower : n / den ≠ 0 → 2 ^ (n / den).log2 ≤ n / den := Nat.log2_self_le
  generalize hlog : (n / den).log2 = log at hupper hlower ⊢
  generalize he : log - 52 = e
  have hscaled : 0 < den * 2 ^ e := Nat.mul_pos hden (Nat.pow_pos (by decide))
  rcases Nat.lt_trichotomy e k with hless | rfl | hmore
  · have hn : n < 2 ^ 53 * (den * 2 ^ e) := by
      have hpow : n / den < 2 ^ (e + 53) :=
        Nat.lt_of_lt_of_le hupper (Nat.pow_le_pow_right (by decide) (by omega))
      rw [Nat.div_lt_iff_lt_mul hden, Nat.pow_add] at hpow
      linarith
    have hrounded : divToEven n (den * 2 ^ e) < 2 ^ 53 + 2 :=
      (divToEven_lt_iff hscaled (by decide)).mpr (by omega)
    have hscale : 2 * (den * 2 ^ e) ≤ den * 2 ^ k := by
      have hpow : 2 ^ (e + 1) ≤ 2 ^ k := Nat.pow_le_pow_right (by decide) hless
      have := Nat.mul_le_mul_left den hpow
      rw [Nat.pow_succ] at this
      linarith
    exact iff_of_true (by omega) (by omega)
  · rw [show (e + 2) * 2 ^ 52 = 2 ^ 53 + e * 2 ^ 52 by omega, Nat.add_lt_add_iff_right]
    exact divToEven_lt_iff hscaled (by decide)
  · have hn : 2 ^ 52 * (den * 2 ^ e) ≤ n := by
      have hne : n / den ≠ 0 := by
        intro hzero
        rw [hzero, Nat.log2_zero] at hlog
        omega
      have hpow := hlower hne
      rw [show log = e + 52 by omega, Nat.le_div_iff_mul_le hden, Nat.pow_add] at hpow
      linarith
    have hrounded : ¬divToEven n (den * 2 ^ e) < 2 ^ 52 := by
      rw [divToEven_lt_iff hscaled (by decide)]
      omega
    have hscale : 2 * (den * 2 ^ k) ≤ den * 2 ^ e := by
      have hpow : 2 ^ (k + 1) ≤ 2 ^ e := Nat.pow_le_pow_right (by decide) hmore
      have := Nat.mul_le_mul_left den hpow
      rw [Nat.pow_succ] at this
      linarith
    exact iff_of_false (by omega) (by omega)

/-- A power of two that both sides have makes no difference. -/
theorem scaled_lt_iff (num den w a b : ℕ) :
    2 * (num * 2 ^ b) < w * (den * 2 ^ (a + b + 1)) ↔ num < w * 2 ^ a * den := by
  have hleft : 2 * (num * 2 ^ b) = num * 2 ^ (b + 1) := by ring
  have hright : w * (den * 2 ^ (a + b + 1)) = w * 2 ^ a * den * 2 ^ (b + 1) := by ring
  rw [hleft, hright]
  exact Nat.mul_lt_mul_right (Nat.pow_pos (by decide))

/-- A quotient has a finite rank exactly when it is in range. -/
theorem nearestRank_lt_iff {num den : ℕ} (hden : 0 < den) :
    nearestRank num den < finiteRanks ↔ (num : ℚ) / den < overflow := by
  have hpos : (0 : ℚ) < den := Nat.cast_pos.mpr hden
  have hbound : (((2 ^ 54 - 1) * 2 ^ 970 * den : ℕ) : ℚ) = overflow * den := by
    rw [Nat.cast_mul, Nat.cast_mul, Nat.cast_pow, Nat.cast_sub (by decide), Nat.cast_pow]
    rfl
  rw [div_lt_iff₀ hpos, ← hbound, Nat.cast_lt]
  unfold nearestRank
  -- The unit is a variable from here on, so that its power is not computed.
  generalize hunit : 1074 = unit
  have hranks : finiteRanks = (970 + unit + 1 + 2) * 2 ^ 52 := by
    rw [← hunit]
    rfl
  rw [hranks]
  exact (rank_lt_iff hden _).trans (scaled_lt_iff num den (2 ^ 54 - 1) 970 unit)

/-- The bound has no more than 310 digits. -/
theorem overflow_le : overflow ≤ 10 ^ (310 : ℤ) := by
  have hpow : (2 : ℕ) ^ 1024 ≤ 10 ^ 310 := by decide +kernel
  have hcast : (2 : ℚ) ^ 1024 ≤ 10 ^ 310 := by exact_mod_cast hpow
  calc overflow ≤ 2 ^ 54 * 2 ^ 970 := mul_le_mul_of_nonneg_right (by norm_num) (by positivity)
    _ = 2 ^ 1024 := (pow_add 2 54 970).symm
    _ ≤ 10 ^ 310 := hcast

/-- One is in range. -/
theorem one_le_overflow : 1 ≤ overflow :=
  one_le_mul_of_one_le_of_one_le (by norm_num) (one_le_pow₀ (by norm_num))

namespace Decimal

/-- Digits before their power of ten: the number lies between two powers. -/
theorem toRat_lt (d : Decimal) :
    d.toRat < 10 ^ (d.exponent + (Nat.toDigits 10 d.coefficient).length) := by
  have hlength : d.coefficient < 10 ^ (Nat.toDigits 10 d.coefficient).length :=
    (Nat.length_toDigits_le_iff (by decide) (List.length_pos_iff.mpr Nat.toDigits_ne_nil)).mp le_rfl
  have hcast : (d.coefficient : ℚ) < 10 ^ (Nat.toDigits 10 d.coefficient).length := by
    exact_mod_cast hlength
  rw [toRat, zpow_add₀ (by norm_num), zpow_natCast, mul_comm]
  exact mul_lt_mul_of_pos_left hcast (zpow_pos (by norm_num) _)

/-- The first digit of a number other than zero counts. -/
theorem le_toRat {d : Decimal} (h : d.coefficient ≠ 0) :
    10 ^ (d.exponent + (Nat.toDigits 10 d.coefficient).length - 1) ≤ d.toRat := by
  have hlength : 10 ^ ((Nat.toDigits 10 d.coefficient).length - 1) ≤ d.coefficient := by
    by_cases hone : 1 < (Nat.toDigits 10 d.coefficient).length
    · exact pow_le_of_length_toDigits hone
    · rw [show (Nat.toDigits 10 d.coefficient).length - 1 = 0 by omega]
      exact Nat.one_le_iff_ne_zero.mpr h
  have hpos : 0 < (Nat.toDigits 10 d.coefficient).length :=
    List.length_pos_iff.mpr Nat.toDigits_ne_nil
  have hcast : (10 : ℚ) ^ ((Nat.toDigits 10 d.coefficient).length - 1) ≤ d.coefficient := by
    exact_mod_cast hlength
  have hsplit : d.exponent + (Nat.toDigits 10 d.coefficient).length - 1 =
      d.exponent + ((Nat.toDigits 10 d.coefficient).length - 1 : ℕ) := by omega
  rw [hsplit, toRat, zpow_add₀ (by norm_num), zpow_natCast, mul_comm (d.coefficient : ℚ)]
  exact mul_le_mul_of_nonneg_left hcast (zpow_nonneg (by norm_num) _)

end Decimal

namespace Binary64

/-- A quotient is rounded to a finite number exactly when it is in range. -/
theorem isFinite_nearest (negative : Bool) {num den : ℕ} (hden : 0 < den) :
    (nearest negative num den).isFinite = true ↔ (num : ℚ) / den < overflow := by
  rw [← nearestRank_lt_iff hden, nearest, ofRank]
  split
  · rename_i hrank
    exact iff_of_true rfl hrank
  · rename_i hrank
    exact iff_of_false Bool.false_ne_true hrank

end Binary64

/-- A decimal is rounded to a finite number exactly when it is in range. -/
theorem Decimal.isFinite_nearest (negative : Bool) (d : Decimal) :
    (d.nearest negative).isFinite = true ↔ d.toRat < overflow := by
  unfold Decimal.nearest
  dsimp only
  split
  · rename_i hsmall
    refine iff_of_true rfl ?_
    rcases hsmall with hzero | hpower
    · rw [toRat, hzero, Nat.cast_zero, zero_mul]
      exact one_pos.trans_le one_le_overflow
    · calc d.toRat < 10 ^ (d.exponent + (Nat.toDigits 10 d.coefficient).length) := d.toRat_lt
        _ ≤ 10 ^ (0 : ℤ) := zpow_le_zpow_right₀ (by norm_num) (by omega)
        _ ≤ overflow := one_le_overflow
  · rename_i hlarge
    obtain ⟨hcoefficient, _⟩ := not_or.mp hlarge
    split
    · rename_i hpower
      refine iff_of_false Bool.false_ne_true (not_lt.mpr ?_)
      calc overflow ≤ 10 ^ (310 : ℤ) := overflow_le
        _ ≤ 10 ^ (d.exponent + (Nat.toDigits 10 d.coefficient).length - 1) :=
          zpow_le_zpow_right₀ (by norm_num) (by omega)
        _ ≤ d.toRat := le_toRat hcoefficient
    · split
      · rename_i n hexponent
        have hvalue : d.toRat = ((d.coefficient * 10 ^ n : ℕ) : ℚ) / (1 : ℕ) := by
          rw [toRat, hexponent, Int.ofNat_eq_natCast, zpow_natCast]
          push_cast
          exact (div_one _).symm
        rw [hvalue]
        exact Binary64.isFinite_nearest negative Nat.one_pos
      · rename_i n hexponent
        have hvalue : d.toRat = (d.coefficient : ℚ) / (10 ^ (n + 1) : ℕ) := by
          rw [toRat, hexponent, zpow_negSucc, ← div_eq_mul_inv]
          push_cast
          rfl
        rw [hvalue]
        exact Binary64.isFinite_nearest negative (Nat.pow_pos (by decide))

end SqlText.Number

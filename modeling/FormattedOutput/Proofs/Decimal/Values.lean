import FormattedOutput.Decimal.Basic
import Mathlib.Algebra.Order.Field.Power
import Mathlib.Data.Rat.Cast.Order
import Mathlib.Tactic.FieldSimp
import Mathlib.Tactic.Positivity
import Mathlib.Tactic.Ring

/-!
# The value of a decimal

What a decimal stands for is a rational number. The number of its digits tells how large its
mantissa is, and moving zeros into the exponent changes nothing but the digits.
-/

namespace FormattedOutput

namespace Decimal

/-- The number that a decimal stands for. -/
def toRat (d : Decimal) : Rat := d.mantissa * 10 ^ d.exponent

/-! ## The number of digits -/

theorem digitCount_of_lt {n : Nat} (h : n < 10) : digitCount n = 1 := by
  rw [digitCount, if_pos h]

theorem digitCount_pos (n : Nat) : 0 < digitCount n := by
  unfold digitCount
  split_ifs <;> omega

/-- A number has at most `k` digits just if it is below `10 ^ k`. -/
theorem digitCount_le_iff {n k : Nat} (hk : 0 < k) : digitCount n ≤ k ↔ n < 10 ^ k := by
  induction n using digitCount.induct generalizing k with
  | case1 n hsmall =>
    rw [digitCount, if_pos hsmall]
    have hpow : 10 ^ 1 ≤ 10 ^ k := Nat.pow_le_pow_right (by decide) hk
    constructor <;> intro <;> omega
  | case2 n hlarge ih =>
    rw [digitCount, if_neg hlarge]
    cases k with
    | zero => contradiction
    | succ k =>
      rcases Nat.eq_zero_or_pos k with rfl | hk'
      · have hpos := digitCount_pos (n / 10)
        omega
      · rw [Nat.succ_le_succ_iff, ih hk', pow_succ, Nat.div_lt_iff_lt_mul (by decide)]

theorem lt_pow_digitCount (n : Nat) : n < 10 ^ digitCount n :=
  (digitCount_le_iff (digitCount_pos n)).mp le_rfl

theorem pow_digitCount_le {n : Nat} (h : 0 < n) : 10 ^ (digitCount n - 1) ≤ n := by
  by_contra hlt
  rcases Nat.eq_zero_or_pos (digitCount n - 1) with hzero | hpos
  · rw [hzero, pow_zero] at hlt
    omega
  · have hle := (digitCount_le_iff hpos).mpr (Nat.lt_of_not_le hlt)
    omega

/-- Taking digits off the end of a number leaves so many digits fewer. -/
theorem digitCount_div_pow {n k : Nat} (h : 10 ^ k ≤ n) :
    digitCount n = digitCount (n / 10 ^ k) + k := by
  induction k generalizing n with
  | zero => rw [pow_zero, Nat.div_one, add_zero]
  | succ k ih =>
    have hpos : 0 < 10 ^ k := Nat.pow_pos (by decide)
    have hten : 10 ^ k ≤ n / 10 := by
      rw [Nat.le_div_iff_mul_le (by decide), ← pow_succ]
      exact h
    have hlarge : ¬n < 10 := by omega
    rw [digitCount, if_neg hlarge, ih hten, Nat.div_div_eq_div_mul, mul_comm 10, ← pow_succ,
      add_assoc]

theorem digitCount_mul_pow {n : Nat} (h : 0 < n) (k : Nat) :
    digitCount (n * 10 ^ k) = digitCount n + k := by
  have hpos : 0 < 10 ^ k := Nat.pow_pos (by decide)
  rw [digitCount_div_pow (k := k) (Nat.le_mul_of_pos_left _ h), Nat.mul_div_cancel _ hpos]

/-! ## Grids of decimals -/

variable {c d : Decimal}

theorem toRat_lt (d : Decimal) : d.toRat < 10 ^ (d.digits + d.exponent) := by
  have hlt : (d.mantissa : Rat) < 10 ^ d.digits := by
    exact_mod_cast lt_pow_digitCount d.mantissa
  unfold toRat
  rw [zpow_add₀ (by norm_num), zpow_natCast]
  exact mul_lt_mul_of_pos_right hlt (by positivity)

theorem le_toRat (h : 0 < d.mantissa) : (10 : Rat) ^ (d.digits - 1 + d.exponent) ≤ d.toRat := by
  have hle : (10 : Rat) ^ (d.digits - 1) ≤ d.mantissa := by
    exact_mod_cast pow_digitCount_le h
  have hpos : 1 ≤ d.digits := digitCount_pos d.mantissa
  have hcast : (d.digits - 1 : Int) = ((d.digits - 1 : Nat) : Int) := by omega
  unfold toRat
  rw [hcast, zpow_add₀ (by norm_num), zpow_natCast]
  exact mul_le_mul_of_nonneg_right hle (by positivity)

/-- A single digit with a smaller exponent is at most 9 of the next smaller one. -/
theorem toRat_le_nine {e : Int} (hdigits : c.digits = 1) (hexp : c.exponent < e) :
    c.toRat ≤ 9 * 10 ^ (e - 1) := by
  have hlt : c.mantissa < 10 ^ 1 := (digitCount_le_iff (by decide)).mp (le_of_eq hdigits)
  have hmantissa : (c.mantissa : Rat) ≤ 9 := by
    exact_mod_cast (by omega : c.mantissa ≤ 9)
  have hpow : (10 : Rat) ^ c.exponent ≤ 10 ^ (e - 1) :=
    zpow_le_zpow_right₀ (by norm_num) (by omega)
  unfold toRat
  exact mul_le_mul hmantissa hpow (by positivity) (by norm_num)

/-- A decimal is a point of every finer grid of powers of ten. -/
theorem exists_toRat_eq {e : Int} (h : e ≤ d.exponent) :
    ∃ n : Nat, d.toRat = n * 10 ^ e := by
  refine ⟨d.mantissa * 10 ^ (d.exponent - e).toNat, ?_⟩
  have hexp : d.exponent = (d.exponent - e).toNat + e := by omega
  unfold toRat
  conv_lhs => rw [hexp, zpow_add₀ (by norm_num), zpow_natCast]
  push_cast
  ring

/-- The same number has one mantissa on one grid. -/
theorem mantissa_eq_of_toRat_eq {n : Nat} (h : d.toRat = n * 10 ^ d.exponent) :
    n = d.mantissa := by
  have hne : (10 : Rat) ^ d.exponent ≠ 0 := by positivity
  have hcast := mul_right_cancel₀ hne h
  exact_mod_cast hcast.symm

/-! ## Moving zeros into the exponent -/

theorem toRat_trim (d : Decimal) : d.trim.toRat = d.toRat := by
  induction d using trim.induct with
  | case1 d hzero ih =>
    rw [trim, if_pos hzero, ih]
    have hten : d.mantissa = d.mantissa / 10 * 10 := by omega
    unfold toRat
    rw [zpow_add_one₀ (by norm_num)]
    conv_rhs => rw [hten]
    push_cast
    ring
  | case2 d hzero =>
    rw [trim, if_neg hzero]

theorem not_ten_dvd_trim (h : 0 < d.mantissa) : ¬10 ∣ d.trim.mantissa := by
  induction d using trim.induct with
  | case1 d hzero ih =>
    rw [trim, if_pos hzero]
    apply ih
    simp only
    omega
  | case2 d hzero =>
    rw [trim, if_neg hzero]
    omega

theorem le_exponent_trim (d : Decimal) : d.exponent ≤ d.trim.exponent := by
  induction d using trim.induct with
  | case1 d hzero ih =>
    rw [trim, if_pos hzero]
    simp only at ih
    omega
  | case2 d hzero =>
    rw [trim, if_neg hzero]

theorem mantissa_trim_le (d : Decimal) : d.trim.mantissa ≤ d.mantissa := by
  induction d using trim.induct with
  | case1 d hzero ih =>
    rw [trim, if_pos hzero]
    simp only at ih
    omega
  | case2 d hzero =>
    rw [trim, if_neg hzero]

end Decimal

end FormattedOutput

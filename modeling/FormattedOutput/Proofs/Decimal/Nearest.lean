import FormattedOutput.Proofs.Decimal.Values
import Mathlib.Tactic.Linarith

/-!
# Rounding a decimal

To keep the first digits of a decimal is to round it to a grid of powers of ten: to the nearest
point, and to the even one of two that are equally near. On one grid this keeps the order of two
numbers. It keeps it as well if both are rounded to so many digits, where the larger number may be
on a coarser grid: a power of ten stands between them, and rounding does not pass it.
-/

namespace FormattedOutput

namespace Decimal

/-! ## The nearest whole number -/

/-- A whole number is the nearest one. Halfway between two it is the even one. -/
structure NearestEven (r : Rat) (n : Nat) : Prop where
  near : |r - n| ≤ 1 / 2
  even : |r - n| = 1 / 2 → n % 2 = 0

section

variable {r s : Rat} {n m unit : Nat}

theorem nearestEven_natCast (n : Nat) : NearestEven n n := by
  constructor
  · rw [sub_self, abs_zero]
    norm_num
  · intro h
    rw [sub_self, abs_zero] at h
    norm_num at h

theorem nearestEven_of_lt_half (h : |r - n| < 1 / 2) : NearestEven r n :=
  ⟨h.le, fun heq => absurd heq h.ne⟩

/-- A larger number has no smaller nearest one. -/
theorem NearestEven.mono (hr : NearestEven r n) (hs : NearestEven s m) (h : r ≤ s) : n ≤ m := by
  by_contra hlt
  have hstep : (m : Rat) + 1 ≤ n := by
    exact_mod_cast (by omega : m + 1 ≤ n)
  obtain ⟨hlow, _⟩ := abs_le.mp hr.near
  obtain ⟨_, hhigh⟩ := abs_le.mp hs.near
  -- Both are the point halfway between the two whole numbers, and these are not both even.
  have hnext : (n : Rat) = m + 1 := by linarith
  have hupper : |r - n| = 1 / 2 := by
    rw [abs_sub_comm, abs_of_nonneg] <;> linarith
  have hlower : |s - m| = 1 / 2 := by
    rw [abs_of_nonneg] <;> linarith
  have hn := hr.even hupper
  have hm := hs.even hlower
  have hnat : n = m + 1 := by exact_mod_cast hnext
  omega

theorem divideToEven_le (n unit : Nat) : divideToEven n unit ≤ n / unit + 1 := by
  unfold divideToEven
  simp only
  split_ifs <;> omega

theorem le_divideToEven (n unit : Nat) : n / unit ≤ divideToEven n unit := by
  unfold divideToEven
  simp only
  split_ifs <;> omega

/-- Division that rounds to even gives the nearest whole number. -/
theorem nearestEven_divideToEven (n : Nat) (hunit : 0 < unit) :
    NearestEven (n / unit) (divideToEven n unit) := by
  have hpos : (0 : Rat) < unit := by exact_mod_cast hunit
  have hrest : (n % unit : Nat) < unit := Nat.mod_lt n hunit
  have hsum : (n : Rat) / unit = (n / unit : Nat) + (n % unit : Nat) / (unit : Rat) := by
    have hdiv : (n : Rat) = unit * (n / unit : Nat) + (n % unit : Nat) := by
      exact_mod_cast (Nat.div_add_mod n unit).symm
    field_simp
    linarith
  rw [hsum]
  unfold divideToEven
  simp only
  generalize n / unit = quotient at *
  generalize n % unit = rest at *
  have hdouble : (rest : Rat) / unit = (2 * rest : Nat) / (unit : Rat) / 2 := by
    push_cast
    ring
  have hhalf : (rest : Rat) / unit = 1 / 2 → 2 * rest = unit := by
    intro heq
    have hone : (2 * rest : Nat) / (unit : Rat) = 1 := by linarith
    rw [div_eq_one_iff_eq hpos.ne'] at hone
    exact_mod_cast hone
  split_ifs with hup
  · -- The rest is at least a half, and the quotient goes up.
    have hle : 1 ≤ (2 * rest : Nat) / (unit : Rat) := by
      rw [le_div_iff₀ hpos, one_mul]
      exact_mod_cast (by omega : unit ≤ 2 * rest)
    have hlt : (rest : Rat) / unit < 1 := by
      rw [div_lt_one hpos]
      exact_mod_cast hrest
    have habs : |(quotient : Rat) + rest / unit - (quotient + 1 : Nat)| = 1 - rest / unit := by
      rw [abs_sub_comm, abs_of_nonneg] <;> push_cast <;> linarith
    refine ⟨by linarith, fun heq => ?_⟩
    have := hhalf (by linarith)
    omega
  · have hle : (2 * rest : Nat) / (unit : Rat) ≤ 1 := by
      rw [div_le_one hpos]
      exact_mod_cast (by omega : 2 * rest ≤ unit)
    have hnonneg : 0 ≤ (rest : Rat) / unit := by positivity
    have habs : |(quotient : Rat) + rest / unit - quotient| = rest / unit := by
      rw [add_sub_cancel_left, abs_of_nonneg hnonneg]
    refine ⟨by linarith, fun heq => ?_⟩
    have := hhalf (by linarith)
    omega

end

/-! ## Grids -/

/-- A number is rounded to a point of the grid `10 ^ e`. -/
def RoundsToGrid (e : Int) (r s : Rat) : Prop :=
  ∃ n : Nat, NearestEven (r / 10 ^ e) n ∧ s = n * 10 ^ e

section

variable {e : Int} {r r' s s' : Rat}

theorem RoundsToGrid.mono (h : RoundsToGrid e r s) (h' : RoundsToGrid e r' s') (hle : r ≤ r') :
    s ≤ s' := by
  obtain ⟨n, hn, rfl⟩ := h
  obtain ⟨m, hm, rfl⟩ := h'
  have hpos : (0 : Rat) < 10 ^ e := by positivity
  have hnm : n ≤ m := hn.mono hm (div_le_div_of_nonneg_right hle hpos.le)
  have hcast : (n : Rat) ≤ m := by exact_mod_cast hnm
  exact mul_le_mul_of_nonneg_right hcast hpos.le

theorem RoundsToGrid.unique (h : RoundsToGrid e r s) (h' : RoundsToGrid e r s') : s = s' :=
  (h.mono h' le_rfl).antisymm (h'.mono h le_rfl)

/-- A point of the grid stays where it is. -/
theorem roundsToGrid_point (e : Int) (n : Nat) : RoundsToGrid e (n * 10 ^ e) (n * 10 ^ e) := by
  have hne : (10 : Rat) ^ e ≠ 0 := by positivity
  refine ⟨n, ?_, rfl⟩
  rw [mul_div_cancel_right₀ _ hne]
  exact nearestEven_natCast n

theorem roundsToGrid_pow {e k : Int} (h : e ≤ k) : RoundsToGrid e (10 ^ k) (10 ^ k) := by
  obtain ⟨n, hn⟩ := Int.eq_ofNat_of_zero_le (show 0 ≤ k - e by omega)
  have hpow : (10 : Rat) ^ k = ((10 ^ n : Nat) : Rat) * 10 ^ e := by
    rw [show k = n + e by omega, zpow_add₀ (by norm_num), zpow_natCast]
    push_cast
    rfl
  rw [hpow]
  exact roundsToGrid_point e (10 ^ n)

end

/-! ## Keeping digits -/

variable {c d : Decimal}

theorem toRat_nonneg (d : Decimal) : 0 ≤ d.toRat := by
  unfold toRat
  positivity

theorem toRat_eq_zero (h : d.mantissa = 0) : d.toRat = 0 := by
  unfold toRat
  rw [h, Nat.cast_zero, zero_mul]

@[simp] theorem toRat_zero : zero.toRat = 0 := toRat_eq_zero rfl

theorem keepDigits_of_le {keep : Int} (h : d.digits ≤ keep) : d.keepDigits keep = d := by
  unfold keepDigits
  simp only
  rw [if_pos h]

theorem keepDigits_of_neg {keep : Int} (h : keep < 0) :
    d.keepDigits keep = ⟨0, d.exponent + d.digits⟩ := by
  unfold keepDigits
  simp only
  rw [if_neg (by omega), if_pos h]

/-- The digits that are dropped are divided off. A carry that gives one digit too many gives it to
the exponent. -/
theorem keepDigits_of_lt {keep : Nat} (h : keep < d.digits) :
    d.keepDigits keep =
      let rounded := divideToEven d.mantissa (10 ^ (d.digits - keep))
      if 0 < keep ∧ rounded = 10 ^ keep then
        ⟨rounded / 10, d.exponent + (d.digits - keep : Nat) + 1⟩
      else ⟨rounded, d.exponent + (d.digits - keep : Nat)⟩ := by
  have hdrop : ((d.digits : Int) - keep).toNat = d.digits - keep := by omega
  unfold keepDigits
  simp only
  rw [if_neg (by omega), if_neg (by omega), hdrop, Int.toNat_natCast]
  simp only [Int.natCast_pos]

/-- What is left without the digits that are dropped has no digit too many. -/
theorem div_lt_pow {keep : Nat} (h : keep ≤ d.digits) :
    d.mantissa / 10 ^ (d.digits - keep) < 10 ^ keep := by
  rw [Nat.div_lt_iff_lt_mul (Nat.pow_pos (by decide)), ← pow_add, Nat.add_sub_cancel' h]
  exact lt_pow_digitCount d.mantissa

/-- Dropping digits rounds to the place of the last digit that is kept. -/
theorem roundsToGrid_of_lt {keep : Nat} (h : keep < d.digits) :
    RoundsToGrid (d.exponent + d.digits - keep) d.toRat (d.keepDigits keep).toRat := by
  have hgrid : d.exponent + d.digits - keep = (d.digits - keep : Nat) + d.exponent := by omega
  have hpow : 0 < 10 ^ (d.digits - keep) := Nat.pow_pos (by decide)
  refine ⟨divideToEven d.mantissa (10 ^ (d.digits - keep)), ?_, ?_⟩
  · have hquotient : d.toRat / 10 ^ (d.exponent + d.digits - keep) =
        (d.mantissa : Rat) / (10 ^ (d.digits - keep) : Nat) := by
      unfold toRat
      rw [hgrid, zpow_add₀ (by norm_num), zpow_natCast]
      push_cast
      field_simp
    rw [hquotient]
    exact nearestEven_divideToEven d.mantissa hpow
  · rw [keepDigits_of_lt h]
    simp only
    split_ifs with hcarry
    · -- A carry leaves a power of ten, and its last zero goes into the exponent.
      obtain ⟨hkeep, hrounded⟩ := hcarry
      obtain ⟨k, rfl⟩ : ∃ k, keep = k + 1 := ⟨keep - 1, by omega⟩
      unfold toRat
      simp only
      rw [hrounded, pow_succ, Nat.mul_div_cancel _ (by decide),
        zpow_add_one₀ (by norm_num)]
      rw [show d.exponent + ((d.digits - (k + 1) : Nat) : Int) =
        d.exponent + d.digits - (k + 1 : Nat) by omega]
      push_cast
      ring
    · unfold toRat
      simp only
      rw [show d.exponent + ((d.digits - keep : Nat) : Int) = d.exponent + d.digits - keep by omega]

/-- What is kept of a decimal is the decimal rounded to the place of the last digit that is
kept. -/
theorem keepDigits_roundsToGrid (d : Decimal) (keep : Int) :
    RoundsToGrid (d.exponent + d.digits - keep) d.toRat (d.keepDigits keep).toRat := by
  by_cases hall : d.digits ≤ keep
  · obtain ⟨n, hn⟩ := d.exists_toRat_eq (show d.exponent + d.digits - keep ≤ d.exponent by omega)
    rw [keepDigits_of_le hall, hn]
    exact roundsToGrid_point _ n
  · by_cases hnegative : keep < 0
    · -- All of the number is smaller than a tenth of the grid.
      have hnone : (d.keepDigits keep).toRat = 0 := by
        rw [keepDigits_of_neg hnegative]
        exact toRat_eq_zero rfl
      have hpos : (0 : Rat) < 10 ^ (d.exponent + d.digits - keep) := by positivity
      have hsmall : d.toRat / 10 ^ (d.exponent + d.digits - keep) < 1 / 10 := by
        rw [div_lt_iff₀ hpos]
        apply d.toRat_lt.trans_le
        have hpow : (10 : Rat) ^ (d.digits + d.exponent) ≤
            10 ^ (d.exponent + d.digits - keep - 1) :=
          zpow_le_zpow_right₀ (by norm_num) (by omega)
        rw [zpow_sub_one₀ (by norm_num)] at hpow
        linarith
      refine ⟨0, nearestEven_of_lt_half ?_, by rw [hnone, Nat.cast_zero, zero_mul]⟩
      have hnonneg : 0 ≤ d.toRat / 10 ^ (d.exponent + d.digits - keep) :=
        div_nonneg d.toRat_nonneg hpos.le
      rw [Nat.cast_zero, sub_zero, abs_of_nonneg hnonneg]
      linarith
    · obtain ⟨k, rfl⟩ := Int.eq_ofNat_of_zero_le (Int.not_lt.mp hnegative)
      exact roundsToGrid_of_lt (by omega)

/-- Rounding to some digits does not pass the powers of ten around a decimal. -/
theorem toRat_keepDigits_between {keep : Int} (hkeep : 1 ≤ keep) (hpos : 0 < d.mantissa) :
    (10 : Rat) ^ (d.exponent + d.digits - 1) ≤ (d.keepDigits keep).toRat ∧
      (d.keepDigits keep).toRat ≤ 10 ^ (d.exponent + d.digits) := by
  have hgrid := d.keepDigits_roundsToGrid keep
  constructor
  · apply (roundsToGrid_pow (by omega)).mono hgrid
    have hle := le_toRat hpos
    rwa [show (d.digits : Int) - 1 + d.exponent = d.exponent + d.digits - 1 by omega] at hle
  · apply hgrid.mono (roundsToGrid_pow (by omega))
    have hlt := d.toRat_lt
    rw [add_comm] at hlt
    exact hlt.le

/-- Rounding to some digits keeps the order. -/
theorem toRat_keepDigits_mono {keep : Int} (hkeep : 1 ≤ keep) (h : c.toRat ≤ d.toRat) :
    (c.keepDigits keep).toRat ≤ (d.keepDigits keep).toRat := by
  rcases Nat.eq_zero_or_pos c.mantissa with hzero | hc
  · have hdigits : c.digits ≤ keep := by
      unfold digits
      rw [hzero, digitCount_of_lt (by decide)]
      exact hkeep
    rw [keepDigits_of_le hdigits, toRat_eq_zero hzero]
    exact toRat_nonneg _
  · have hcpos : 0 < c.toRat := by
      have hmantissa : (0 : Rat) < c.mantissa := by exact_mod_cast hc
      unfold toRat
      positivity
    have hd : 0 < d.mantissa := by
      apply Nat.pos_of_ne_zero
      intro hzero
      rw [toRat_eq_zero hzero] at h
      linarith
    obtain ⟨_, hupper⟩ := toRat_keepDigits_between hkeep hc
    obtain ⟨hlower, _⟩ := toRat_keepDigits_between hkeep hd
    rcases lt_trichotomy (c.exponent + c.digits) (d.exponent + d.digits) with hlt | heq | hgt
    · -- A power of ten stands between them.
      have hpow : (10 : Rat) ^ (c.exponent + c.digits) ≤ 10 ^ (d.exponent + d.digits - 1) :=
        zpow_le_zpow_right₀ (by norm_num) (by omega)
      linarith
    · have hgrid := c.keepDigits_roundsToGrid keep
      rw [heq] at hgrid
      exact hgrid.mono (d.keepDigits_roundsToGrid keep) h
    · have hlow := le_toRat hc
      have hhigh := d.toRat_lt
      have hpow : (10 : Rat) ^ (d.digits + d.exponent) ≤ 10 ^ (c.digits - 1 + c.exponent) :=
        zpow_le_zpow_right₀ (by norm_num) (by omega)
      linarith

/-- With one digit to keep or more, what is left has no more digits than that. -/
theorem digits_keepDigits_le {keep : Int} (hkeep : 1 ≤ keep) :
    (d.keepDigits keep).digits ≤ keep := by
  by_cases hall : d.digits ≤ keep
  · rw [keepDigits_of_le hall]
    exact hall
  · obtain ⟨k, rfl⟩ : ∃ k : Nat, keep = (k + 1 : Nat) := ⟨(keep - 1).toNat, by omega⟩
    have hlt : k + 1 < d.digits := by omega
    have hquotient := d.div_lt_pow hlt.le
    have hrounded := divideToEven_le d.mantissa (10 ^ (d.digits - (k + 1)))
    rw [keepDigits_of_lt hlt]
    simp only
    generalize divideToEven d.mantissa (10 ^ (d.digits - (k + 1))) = rounded at *
    unfold digits
    split_ifs with hcarry
    · have hpow : 0 < 10 ^ k := Nat.pow_pos (by decide)
      dsimp only
      rw [Nat.cast_le, digitCount_le_iff (Nat.succ_pos k), hcarry.2, pow_succ,
        Nat.mul_div_cancel _ (by decide)]
      omega
    · dsimp only
      have hne : rounded ≠ 10 ^ (k + 1) := fun heq => hcarry ⟨by omega, heq⟩
      rw [Nat.cast_le, digitCount_le_iff (Nat.succ_pos k)]
      exact lt_of_le_of_ne (by omega) hne

theorem mantissa_keepDigits_pos {keep : Int} (hkeep : 1 ≤ keep) (hpos : 0 < d.mantissa) :
    0 < (d.keepDigits keep).mantissa := by
  obtain ⟨hlower, _⟩ := toRat_keepDigits_between hkeep hpos
  have hpow : (0 : Rat) < 10 ^ (d.exponent + d.digits - 1) := by positivity
  apply Nat.pos_of_ne_zero
  intro hzero
  rw [toRat_eq_zero hzero] at hlower
  linarith

end Decimal

end FormattedOutput
